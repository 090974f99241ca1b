/-
# Catalogues made from lists, and catalogues held against each other

A catalogue is a list in ascending order of keys, each once.  Interfaces keep their entities in
catalogues, and a comparison makes more of them on its way: fields by name, enumerators by name,
types by linker set key.  Those are made from lists in which a key may come twice, and the rule
that decides then is proved here once: of several items with one key, the last counts.

The rest is about two catalogues.  `without` and `common` are what one has and the other lacks, and
what both have; both are in ascending order, and both are told by look-ups alone (`mem_without`,
`mem_common`).  A catalogue held against itself lacks nothing, and pairs every item with
itself.  What becomes of the items does not count as long as they keep their keys, which is what
renamings of ids need (`map`).
-/
import AbiCompat.Catalog

namespace AbiCompat

namespace Catalog

variable {α : Type} {key : α → String}

theorem find?_foldl_insert (xs : List α) (c : Catalog key) (k : String) :
    (xs.foldl insert c).find? k
      = (xs.reverse.find? (fun x => key x == k)).or (c.find? k) := by
  induction xs generalizing c with
  | nil => simp
  | cons x xs ih =>
      rw [List.foldl_cons, ih, find?_insert, List.reverse_cons, List.find?_append]
      by_cases h : key x = k
      · simp [h]
      · simp [h]

/-- Looking up in a catalogue made from a list finds the last item with the key. -/
theorem find?_ofList (xs : List α) (k : String) :
    (ofList xs : Catalog key).find? k = xs.reverse.find? (fun x => key x == k) := by
  rw [ofList, find?_foldl_insert, find?_empty, Option.or_none]

theorem mem_of_mem_ofList {xs : List α} {x : α} (h : x ∈ (ofList xs : Catalog key).items) :
    x ∈ xs := by
  have found := find?_key h
  rw [find?_ofList] at found
  exact List.mem_reverse.mp (List.mem_of_find?_eq_some found)

theorem find?_ofList_eq_none {xs : List α} {k : String} :
    (ofList xs : Catalog key).find? k = none ↔ ∀ x ∈ xs, key x ≠ k := by
  rw [find?_ofList, List.find?_eq_none]
  simp

theorem find?_eq_none {c : Catalog key} {k : String} :
    c.find? k = none ↔ ∀ x ∈ c.items, key x ≠ k := by
  rw [find?, List.find?_eq_none]
  simp

theorem exists_key_ofList {xs : List α} {k : String} :
    (∃ x ∈ (ofList xs : Catalog key).items, key x = k) ↔ ∃ x ∈ xs, key x = k := by
  have same := (find?_eq_none (c := (ofList xs : Catalog key)) (k := k)).symm.trans
    find?_ofList_eq_none
  simpa using not_congr same

/-- Of several items with one key, a catalogue made from a list has the last. -/
theorem last_of_find?_ofList {R : α → α → Prop} {xs : List α} (ascending : xs.Pairwise R)
    {k : String} {x : α} (found : (ofList xs : Catalog key).find? k = some x) :
    x ∈ xs ∧ key x = k ∧ ∀ y ∈ xs, key y = k → y = x ∨ R y x := by
  have listed := mem_of_mem_ofList (mem_of_find? found)
  have same := key_of_find? found
  refine ⟨listed, same, ?_⟩
  intro y hy hk
  rw [find?_ofList, List.find?_eq_some_iff_append] at found
  obtain ⟨-, before, after, split, unlike⟩ := found
  have parts : xs = after.reverse ++ x :: before.reverse := by
    rw [← List.reverse_reverse xs, split]
    simp
  rw [parts] at hy ascending
  rcases List.mem_append.mp hy with hy | hy
  · exact .inr ((List.pairwise_append.mp ascending).2.2 y hy x List.mem_cons_self)
  · rcases List.mem_cons.mp hy with rfl | hy
    · exact .inl rfl
    · exact absurd hk (by simpa using unlike y (List.mem_reverse.mp hy))

/-- Where no two items have one key, a catalogue made from a list has them all. -/
theorem mem_ofList {xs : List α} (distinct : ∀ x ∈ xs, ∀ y ∈ xs, key x = key y → x = y) {x : α} :
    x ∈ (ofList xs : Catalog key).items ↔ x ∈ xs := by
  refine ⟨mem_of_mem_ofList, ?_⟩
  intro mem
  cases found : (ofList xs : Catalog key).find? (key x) with
  | none => exact absurd rfl (find?_ofList_eq_none.mp found x mem)
  | some y =>
      have there := mem_of_find? found
      rw [← distinct y (mem_of_mem_ofList there) x mem (key_of_find? found)]
      exact there

theorem eq_of_key_eq {c : Catalog key} {x y : α} (hx : x ∈ c.items) (hy : y ∈ c.items)
    (same : key x = key y) : x = y := by
  have found := find?_key hx
  rw [same, find?_key hy] at found
  exact (Option.some.inj found).symm

theorem contains_eq_false {c : Catalog key} {k : String} (h : k ∉ c.keys) :
    c.contains k = false := by
  rw [contains, Option.isSome_eq_false_iff, Option.isNone_iff_eq_none, find?_eq_none]
  intro x mem same
  exact h (List.mem_map.mpr ⟨x, mem, same⟩)

@[simp] theorem without_self (c : Catalog key) : c.without c = [] := by
  refine List.filter_eq_nil_iff.mpr ?_
  intro x hx
  simp [contains, find?_key hx]

theorem without_eq_nil {β : Type} {key' : β → String} {c : Catalog key} {d : Catalog key'}
    (h : ∀ x ∈ c.items, ∃ y, d.find? (key x) = some y) :
    c.without d = [] := by
  refine List.eq_nil_iff_forall_not_mem.mpr ?_
  intro x mem
  obtain ⟨here, gone⟩ := mem_without.mp mem
  obtain ⟨y, found⟩ := h x here
  rw [found] at gone
  cases gone

theorem eq_of_mem_common_self {c : Catalog key} {x y : α} (h : (x, y) ∈ c.common c) : x = y := by
  obtain ⟨hx, hy⟩ := mem_common.mp h
  rw [find?_key hx] at hy
  exact Option.some.inj hy

theorem key_eq_of_mem_common {β : Type} {key' : β → String} {c : Catalog key}
    {other : Catalog key'} {x : α} {y : β} (h : (x, y) ∈ c.common other) :
    key' y = key x :=
  key_of_find? (mem_common.mp h).2

/-! ## In order

Both differences of two catalogues keep the order of the keys, and the pairs that two catalogues
share are the same either way round. -/

section Order

variable {β : Type} {key' : β → String}

theorem ascending_without (c : Catalog key) (d : Catalog key') :
    (c.without d).Pairwise (fun x y => key x < key y) :=
  c.ascending.filter _

theorem ascending_common (c : Catalog key) (d : Catalog key') :
    (c.common d).Pairwise (fun p q => key p.1 < key q.1) := by
  refine c.ascending.filterMap _ ?_
  intro x x' before p hp p' hp'
  obtain ⟨y, -, rfl⟩ := Option.map_eq_some_iff.mp hp
  obtain ⟨y', -, rfl⟩ := Option.map_eq_some_iff.mp hp'
  exact before

theorem mem_common_comm {c : Catalog key} {d : Catalog key'} {x : α} {y : β} :
    (y, x) ∈ d.common c ↔ (x, y) ∈ c.common d := by
  rw [mem_common, mem_common]
  constructor
  · rintro ⟨hy, hx⟩
    refine ⟨mem_of_find? hx, ?_⟩
    rw [key_of_find? hx, find?_key hy]
  · rintro ⟨hx, hy⟩
    refine ⟨mem_of_find? hy, ?_⟩
    rw [key_of_find? hy, find?_key hx]

theorem common_comm (c : Catalog key) (d : Catalog key') :
    d.common c = (c.common d).map Prod.swap := by
  refine @eq_of_ascending _ (fun p => key' p.1) _ _ (ascending_common d c) ?_ ?_
  · rw [List.pairwise_map]
    refine (ascending_common c d).imp_of_mem ?_
    rintro ⟨x, y⟩ ⟨x', y'⟩ hp hp' before
    show key' y < key' y'
    rw [key_eq_of_mem_common hp, key_eq_of_mem_common hp']
    exact before
  · rintro ⟨y, x⟩
    rw [mem_common_comm, List.mem_map]
    constructor
    · exact fun h => ⟨(x, y), h, rfl⟩
    · rintro ⟨⟨x', y'⟩, h, same⟩
      cases same
      exact h

end Order

/-! ## Items in another form -/

section Map

variable {β : Type} {key' : β → String} {f : α → β}

/-- The catalogue of what a function makes of the items, if it keeps their keys. -/
def map (f : α → β) (keeps : ∀ x, key' (f x) = key x) (c : Catalog key) : Catalog key' where
  items := c.items.map f
  ascending := by
    rw [List.pairwise_map]
    refine c.ascending.imp ?_
    intro x y lt
    rw [keeps, keeps]
    exact lt

variable {keeps : ∀ x, key' (f x) = key x}

@[simp] theorem items_map (c : Catalog key) : (c.map f keeps).items = c.items.map f := rfl

@[simp] theorem find?_map (c : Catalog key) (k : String) :
    (c.map f keeps).find? k = (c.find? k).map f := by
  have same : (fun x => key' x == k) ∘ f = fun x => key x == k := by
    funext x
    simp [keeps]
  rw [find?, items_map, List.find?_map, same]
  rfl

@[simp] theorem contains_map (c : Catalog key) (k : String) :
    (c.map f keeps).contains k = c.contains k := by
  simp [contains]

theorem map_eq_self {f : α → α} {keeps : ∀ x, key (f x) = key x} (same : f = id)
    (c : Catalog key) : c.map f keeps = c := by
  subst same
  exact ext_items (List.map_id _)

theorem map_insert (c : Catalog key) (x : α) :
    (c.map f keeps).insert (f x) = (c.insert x).map f keeps := by
  refine ext_find? fun k => ?_
  rw [find?_insert, find?_map, find?_map, find?_insert, keeps]
  split <;> rfl

theorem foldl_insert_map (xs : List α) (c : Catalog key) :
    (xs.map f).foldl insert (c.map f keeps) = (xs.foldl insert c).map f keeps := by
  induction xs generalizing c with
  | nil => rfl
  | cons x xs ih => rw [List.map_cons, List.foldl_cons, List.foldl_cons, map_insert, ih]

theorem ofList_map (xs : List α) :
    (ofList (xs.map f) : Catalog key') = (ofList xs : Catalog key).map f keeps :=
  foldl_insert_map xs empty

variable {α' β' : Type} {okey : α' → String} {okey' : β' → String} {g : α' → β'}
  {okeeps : ∀ x, okey' (g x) = okey x}

theorem without_map (c : Catalog key) (d : Catalog okey) :
    (c.map f keeps).without (d.map g okeeps) = (c.without d).map f := by
  simp only [without, items_map, contains_map, List.filter_map]
  refine congrArg (List.map f) (List.filter_congr fun x _ => ?_)
  simp [keeps]

theorem common_map (c : Catalog key) (d : Catalog okey) :
    (c.map f keeps).common (d.map g okeeps) = (c.common d).map (Prod.map f g) := by
  simp only [common, items_map, find?_map, List.filterMap_map, List.map_filterMap]
  refine congrArg (fun h => c.items.filterMap h) (funext fun x => ?_)
  simp only [Function.comp_apply, keeps, Option.map_map]
  rfl

end Map

end Catalog

end AbiCompat
