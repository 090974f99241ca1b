/-
# Catalogues: items in ascending order of a key they carry

The key is a function of the item, so an item cannot sit under a key that is not its own, and two
catalogues with the same items are equal.

## The view

`find?` tells what stands under a key, and a catalogue is determined by it (`ext_find?`).  All
operations are described by the view: `insert` puts an item under its key and leaves everything
else as it was (`find?_insert`), `without` has what the one catalogue has and the other one lacks,
and `common` what both have under one key, in pairs.  So what is proved about catalogues elsewhere
does not open their definitions.

The order is the one of texts, by code points, which is that of their UTF-8 forms as well.
-/

namespace AbiCompat

/-- Items in strictly ascending order of their keys. -/
structure Catalog {α : Type} (key : α → String) where
  items : List α
  ascending : items.Pairwise (fun x y => key x < key y)

namespace Catalog

variable {α : Type} {key : α → String}

theorem key_eq_of_not_lt {a b : String} (h : ¬ a < b) (h' : ¬ b < a) : a = b :=
  String.le_antisymm (String.not_lt.mp h') (String.not_lt.mp h)

/-- Puts an item before the first one with a greater key, in place of one with an equal key. -/
def place (key : α → String) (x : α) : List α → List α
  | [] => [x]
  | y :: ys =>
    if key x < key y then x :: y :: ys
    else if key y < key x then y :: place key x ys
    else x :: ys

theorem mem_place {x z : α} {ys : List α} (h : z ∈ place key x ys) : z = x ∨ z ∈ ys := by
  induction ys with
  | nil => simpa [place] using h
  | cons y ys ih =>
    simp only [place] at h
    split at h
    · simpa using h
    · split at h
      · rcases List.mem_cons.mp h with h | h
        · simp [h]
        · rcases ih h with h | h <;> simp [h]
      · rcases List.mem_cons.mp h with h | h <;> simp [h]

theorem place_ascending (x : α) {ys : List α} (h : ys.Pairwise (fun a b => key a < key b)) :
    (place key x ys).Pairwise (fun a b => key a < key b) := by
  induction ys with
  | nil => simp [place]
  | cons y ys ih =>
    obtain ⟨hy, hys⟩ := List.pairwise_cons.mp h
    simp only [place]
    split
    · rename_i lt
      refine List.pairwise_cons.mpr ⟨?_, h⟩
      intro z hz
      rcases List.mem_cons.mp hz with rfl | hz
      · exact lt
      · exact String.lt_trans lt (hy z hz)
    · rename_i nlt
      split
      · rename_i gt
        refine List.pairwise_cons.mpr ⟨?_, ih hys⟩
        intro z hz
        rcases mem_place hz with rfl | hz
        · exact gt
        · exact hy z hz
      · rename_i ngt
        have same := key_eq_of_not_lt nlt ngt
        refine List.pairwise_cons.mpr ⟨?_, hys⟩
        intro z hz
        rw [same]
        exact hy z hz

/-- The catalogue with no items. -/
def empty : Catalog key := ⟨[], .nil⟩

instance : Inhabited (Catalog key) := ⟨empty⟩

/-- The item under a key. -/
def find? (c : Catalog key) (k : String) : Option α := c.items.find? (fun x => key x == k)

/-- Whether some item has this key. -/
def contains (c : Catalog key) (k : String) : Bool := (c.find? k).isSome

/-- The catalogue with one more item, in place of the one that had its key. -/
def insert (c : Catalog key) (x : α) : Catalog key :=
  ⟨place key x c.items, place_ascending x c.ascending⟩

/-- The items of a list; of several with one key the last is kept. -/
def ofList (xs : List α) : Catalog key := xs.foldl insert empty

/-- The keys, in ascending order. -/
def keys (c : Catalog key) : List String := c.items.map key

/-- How many items there are. -/
def size (c : Catalog key) : Nat := c.items.length

/-- Whether there are no items. -/
def isEmpty (c : Catalog key) : Bool := c.items.isEmpty

/-- The items whose keys the other catalogue does not have. -/
def without {β : Type} {key' : β → String} (c : Catalog key) (other : Catalog key') : List α :=
  c.items.filter (fun x => !other.contains (key x))

/-- The items that share a key with an item of the other catalogue, each with its partner. -/
def common {β : Type} {key' : β → String} (c : Catalog key) (other : Catalog key') :
    List (α × β) :=
  c.items.filterMap (fun x => (other.find? (key x)).map (fun y => (x, y)))

/-! ## The view -/

theorem key_of_find? {c : Catalog key} {k : String} {x : α} (h : c.find? k = some x) :
    key x = k := by
  have := List.find?_some h
  simpa using this

theorem mem_of_find? {c : Catalog key} {k : String} {x : α} (h : c.find? k = some x) :
    x ∈ c.items :=
  List.mem_of_find?_eq_some h

@[simp] theorem find?_empty (k : String) : (empty : Catalog key).find? k = none := rfl

theorem find?_place (x : α) (k : String) {ys : List α}
    (h : ys.Pairwise (fun a b => key a < key b)) :
    (place key x ys).find? (fun y => key y == k)
      = if key x = k then some x else ys.find? (fun y => key y == k) := by
  induction ys with
  | nil => by_cases hk : key x = k <;> simp [place, hk]
  | cons y ys ih =>
    obtain ⟨hy, hys⟩ := List.pairwise_cons.mp h
    simp only [place]
    split
    · by_cases hk : key x = k <;> simp [hk]
    · rename_i nlt
      split
      · rename_i gt
        by_cases hyk : key y = k
        · have hxk : key x ≠ k := fun e => String.lt_irrefl k (by rw [hyk, e] at gt; exact gt)
          simp [hyk, hxk]
        · simp [hyk, ih hys]
      · rename_i ngt
        have same := key_eq_of_not_lt nlt ngt
        by_cases hk : key x = k
        · simp [hk]
        · simp [hk, ← same]

/-- Looking up after inserting. -/
theorem find?_insert (c : Catalog key) (x : α) (k : String) :
    (c.insert x).find? k = if key x = k then some x else c.find? k :=
  find?_place x k c.ascending

theorem find?_key {c : Catalog key} {x : α} (h : x ∈ c.items) : c.find? (key x) = some x := by
  obtain ⟨items, ascending⟩ := c
  simp only [find?] at *
  induction items with
  | nil => simp at h
  | cons y ys ih =>
    obtain ⟨hy, hys⟩ := List.pairwise_cons.mp ascending
    rcases List.mem_cons.mp h with rfl | hx
    · simp
    · have ne : key y ≠ key x := fun e => String.lt_irrefl (key x) (e ▸ hy x hx)
      simp [ne, ih hys hx]

theorem mem_items_iff {c : Catalog key} {x : α} : x ∈ c.items ↔ c.find? (key x) = some x :=
  ⟨find?_key, mem_of_find?⟩

theorem mem_without {β : Type} {key' : β → String} {c : Catalog key} {other : Catalog key'}
    {x : α} : x ∈ c.without other ↔ x ∈ c.items ∧ other.find? (key x) = none := by
  simp [without, contains]

theorem mem_common {β : Type} {key' : β → String} {c : Catalog key} {other : Catalog key'}
    {x : α} {y : β} :
    (x, y) ∈ c.common other ↔ x ∈ c.items ∧ other.find? (key x) = some y := by
  simp only [common, List.mem_filterMap, Option.map_eq_some_iff, Prod.mk.injEq]
  constructor
  · rintro ⟨z, hz, w, hw, rfl, rfl⟩
    exact ⟨hz, hw⟩
  · rintro ⟨hx, hy⟩
    exact ⟨x, hx, y, hy, rfl, rfl⟩

theorem ext_items {c d : Catalog key} (h : c.items = d.items) : c = d := by
  cases c; cases d; cases h; rfl

theorem eq_of_ascending {xs ys : List α} (hx : xs.Pairwise (fun a b => key a < key b))
    (hy : ys.Pairwise (fun a b => key a < key b)) (same : ∀ z, z ∈ xs ↔ z ∈ ys) : xs = ys := by
  induction xs generalizing ys with
  | nil =>
    cases ys with
    | nil => rfl
    | cons y ys => exact absurd ((same y).mpr List.mem_cons_self) (by simp)
  | cons x xs ih =>
    cases ys with
    | nil => exact absurd ((same x).mp List.mem_cons_self) (by simp)
    | cons y ys =>
      obtain ⟨hx, hxs⟩ := List.pairwise_cons.mp hx
      obtain ⟨hy, hys⟩ := List.pairwise_cons.mp hy
      have heads : x = y := by
        rcases List.mem_cons.mp ((same x).mp List.mem_cons_self) with h | h
        · exact h
        · rcases List.mem_cons.mp ((same y).mpr List.mem_cons_self) with h' | h'
          · exact h'.symm
          · exact absurd (String.lt_trans (hy x h) (hx y h')) (String.lt_irrefl _)
      subst heads
      refine congrArg (x :: ·) (ih hxs hys ?_)
      intro z
      constructor
      · intro hz
        rcases List.mem_cons.mp ((same z).mp (List.mem_cons_of_mem _ hz)) with rfl | h
        · exact absurd (hx z hz) (String.lt_irrefl _)
        · exact h
      · intro hz
        rcases List.mem_cons.mp ((same z).mpr (List.mem_cons_of_mem _ hz)) with rfl | h
        · exact absurd (hy z hz) (String.lt_irrefl _)
        · exact h

/-- A catalogue is determined by its view. -/
theorem ext_find? {c d : Catalog key} (h : ∀ k, c.find? k = d.find? k) : c = d := by
  refine ext_items (eq_of_ascending c.ascending d.ascending ?_)
  intro x
  rw [mem_items_iff, mem_items_iff, h]

instance [DecidableEq α] : DecidableEq (Catalog key) := fun c d =>
  if h : c.items = d.items then isTrue (ext_items h) else isFalse fun e => h (by rw [e])

end Catalog

end AbiCompat
