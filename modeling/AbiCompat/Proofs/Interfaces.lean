/-
# What an interface holds

`Interface.stored` is the view of an interface: what is stored under a key of a collection.

## Results

The view tells interfaces apart (`ext_stored`), and `add` and `entities` are described by
it.  After an entity is added it is stored where it belongs, and everything else is as before;
adding fails exactly when a different entity is stored there.  So an interface that is made from a
list depends on nothing but what is in the list: entities of one interface can be added in whatever
order and number to any part of it, and a list of all of them makes that interface again
(`ofEntities_eq_ok`).

## Use

What is proved of populating, of loading and of saving is proved by way of the view.  Which of two
conflicting entities is refused, and with what words, is in `Population`.
-/
import AbiCompat.Interface.Basic

namespace AbiCompat

/-! ## Results -/

section Results

variable {ε α β : Type} {f : α → β} {r : Except ε α}

theorem Except.map_eq_ok_iff {y : β} : r.map f = .ok y ↔ ∃ x, r = .ok x ∧ f x = y := by
  cases r <;> simp [Except.map]

theorem Except.map_eq_error_iff {x : ε} : r.map f = .error x ↔ r = .error x := by
  cases r <;> simp [Except.map]

end Results

/-! ## One collection, seen as entities -/

section Collection

variable {α : Type} {key : α → String} {wrap : α → Entity} {collection : Collection}
  {c d : Catalog key} {x : α}

theorem Catalog.ext_map (inj : ∀ x y, wrap x = wrap y → x = y)
    (h : ∀ k, (c.find? k).map wrap = (d.find? k).map wrap) : c = d :=
  ext_find? fun k => (Option.map_inj_right inj).mp (h k)

variable [DecidableEq α]

theorem Interface.map_find?_enter (h : enter collection c x = .ok d) (k : String) :
    (d.find? k).map wrap = if key x = k then some (wrap x) else (c.find? k).map wrap := by
  rw [find?_enter h]
  split <;> rfl

theorem Interface.enter_eq_error_map (inj : ∀ x y, wrap x = wrap y → x = y) {e : KeyConflict} :
    enter collection c x = .error e ↔
      (∃ f, (c.find? (key x)).map wrap = some f ∧ f ≠ wrap x) ∧ e = ⟨collection, key x⟩ := by
  rw [enter_eq_error_iff]
  refine and_congr_left fun _ => ⟨?_, ?_⟩
  · rintro ⟨y, found, differs⟩
    exact ⟨wrap y, by rw [found]; rfl, fun same => differs (inj y x same)⟩
  · rintro ⟨f, mapped, differs⟩
    obtain ⟨y, found, rfl⟩ := Option.map_eq_some_iff.mp mapped
    exact ⟨y, found, fun same => differs (congrArg wrap same)⟩

end Collection

/-! ## The view -/

namespace Interface

variable {m n : Interface} {e f : Entity} {es : List Entity} {c : Collection} {k : String}

/-- The entity under a key of a collection. -/
def stored (m : Interface) : Collection → String → Option Entity
  | .types, k => (m.types.find? k).map .type
  | .functions, k => (m.functions.find? k).map .function
  | .globals, k => (m.globals.find? k).map .global
  | .functionSymbols, k => (m.functionSymbols.find? k).map .functionSymbol
  | .objectSymbols, k => (m.objectSymbols.find? k).map .objectSymbol

@[simp] theorem stored_empty (c : Collection) (k : String) : empty.stored c k = none := by
  cases c <;> rfl

/-- An interface is determined by its view. -/
theorem ext_stored (h : ∀ c k, m.stored c k = n.stored c k) : m = n := by
  have types := Catalog.ext_map (fun _ _ => Entity.type.inj) (h .types)
  have functions := Catalog.ext_map (fun _ _ => Entity.function.inj) (h .functions)
  have globals := Catalog.ext_map (fun _ _ => Entity.global.inj) (h .globals)
  have functionSymbols :=
    Catalog.ext_map (fun _ _ => Entity.functionSymbol.inj) (h .functionSymbols)
  have objectSymbols := Catalog.ext_map (fun _ _ => Entity.objectSymbol.inj) (h .objectSymbols)
  cases m
  cases n
  cases types
  cases functions
  cases globals
  cases functionSymbols
  cases objectSymbols
  rfl

theorem place_of_stored (h : m.stored c k = some e) : e.collection = c ∧ e.key = k := by
  cases c
  all_goals
    obtain ⟨x, found, rfl⟩ := Option.map_eq_some_iff.mp h
    have key := Catalog.key_of_find? found
    exact ⟨rfl, key⟩

theorem mem_entities : e ∈ m.entities ↔ m.stored e.collection e.key = some e := by
  cases e <;> simp [entities, stored, Entity.collection, Entity.key, Catalog.mem_items_iff]

theorem stored_eq_some_iff :
    m.stored c k = some e ↔ e ∈ m.entities ∧ e.collection = c ∧ e.key = k := by
  rw [mem_entities]
  constructor
  · intro found
    obtain ⟨rfl, rfl⟩ := place_of_stored found
    exact ⟨found, rfl, rfl⟩
  · rintro ⟨found, rfl, rfl⟩
    exact found

theorem ext_entities (h : ∀ e, e ∈ m.entities ↔ e ∈ n.entities) : m = n := by
  refine ext_stored fun c k => Option.ext fun e => ?_
  rw [stored_eq_some_iff, stored_eq_some_iff, h e]

theorem eq_of_place (he : e ∈ m.entities) (hf : f ∈ m.entities)
    (collection : e.collection = f.collection) (key : e.key = f.key) : e = f := by
  rw [mem_entities] at he hf
  rw [collection, key, hf] at he
  exact (Option.some.inj he).symm

/-! ## Adding entities -/

/-- After an entity is added it is stored where it belongs, and everything else is as before. -/
theorem stored_add (h : m.add e = .ok n) (c : Collection) (k : String) :
    n.stored c k = if e.collection = c ∧ e.key = k then some e else m.stored c k := by
  cases e
  all_goals
    obtain ⟨d, entered, rfl⟩ := Except.map_eq_ok_iff.mp h
    cases c <;> simp [stored, Entity.collection, Entity.key, map_find?_enter entered]

/-- Adding an entity fails exactly when a different one is stored where it belongs. -/
theorem add_eq_error_iff {x : KeyConflict} : m.add e = .error x ↔
    (∃ f, m.stored e.collection e.key = some f ∧ f ≠ e) ∧ x = ⟨e.collection, e.key⟩ := by
  cases e with
  | type t => exact Except.map_eq_error_iff.trans (enter_eq_error_map fun _ _ => Entity.type.inj)
  | function f =>
      exact Except.map_eq_error_iff.trans (enter_eq_error_map fun _ _ => Entity.function.inj)
  | global v =>
      exact Except.map_eq_error_iff.trans (enter_eq_error_map fun _ _ => Entity.global.inj)
  | functionSymbol s =>
      exact Except.map_eq_error_iff.trans (enter_eq_error_map fun _ _ => Entity.functionSymbol.inj)
  | objectSymbol s =>
      exact Except.map_eq_error_iff.trans (enter_eq_error_map fun _ _ => Entity.objectSymbol.inj)

theorem mem_entities_add (h : m.add e = .ok n) : f ∈ n.entities ↔ f ∈ m.entities ∨ f = e := by
  rw [mem_entities, stored_add h, mem_entities]
  split
  · rename_i place
    constructor
    · intro same
      exact .inr (Option.some.inj same).symm
    · rintro (found | rfl)
      · refine congrArg some (Decidable.byContradiction fun differs => ?_)
        rw [← place.1, ← place.2] at found
        have conflict : m.add e = .error ⟨e.collection, e.key⟩ :=
          add_eq_error_iff.mpr ⟨⟨f, found, fun same => differs same.symm⟩, rfl⟩
        rw [conflict] at h
        cases h
      · rfl
  · rename_i elsewhere
    refine ⟨.inl, ?_⟩
    rintro (found | rfl)
    · exact found
    · exact absurd ⟨rfl, rfl⟩ elsewhere

theorem add_of_mem (within : ∀ f ∈ m.entities, f ∈ n.entities) (mem : e ∈ n.entities) :
    ∃ m', m.add e = .ok m' := by
  cases added : m.add e with
  | ok m' => exact ⟨m', rfl⟩
  | error x =>
      obtain ⟨⟨f, stored, differs⟩, -⟩ := add_eq_error_iff.mp added
      obtain ⟨found, collection, key⟩ := stored_eq_some_iff.mp stored
      exact absurd (eq_of_place (within f found) mem collection key) differs

theorem addAll_of_mem (within : ∀ f ∈ m.entities, f ∈ n.entities)
    (all : ∀ e ∈ es, e ∈ n.entities) :
    ∃ m', m.addAll es = .ok m' ∧ ∀ f, f ∈ m'.entities ↔ f ∈ m.entities ∨ f ∈ es := by
  induction es generalizing m with
  | nil => exact ⟨m, rfl, fun f => by simp⟩
  | cons e es ih =>
      have mem := all e List.mem_cons_self
      obtain ⟨m₁, added⟩ := add_of_mem within mem
      have within₁ : ∀ f ∈ m₁.entities, f ∈ n.entities := by
        intro f hf
        rcases (mem_entities_add added).mp hf with hf | rfl
        · exact within f hf
        · exact mem
      obtain ⟨m', rest, entities⟩ := ih within₁ fun f hf => all f (List.mem_cons_of_mem e hf)
      refine ⟨m', ?_, fun f => ?_⟩
      · rw [addAll, List.foldlM_cons, added]
        exact rest
      · rw [entities, mem_entities_add added, List.mem_cons, or_assoc]

/-- A list of the entities of an interface makes that interface. -/
theorem ofEntities_eq_ok (same : ∀ e, e ∈ es ↔ e ∈ m.entities) : ofEntities es = .ok m := by
  have none (f : Entity) : f ∉ empty.entities := by
    rw [mem_entities, stored_empty]
    exact (Option.some_ne_none f).symm
  obtain ⟨m', made, entities⟩ := addAll_of_mem (fun f hf => absurd hf (none f))
    fun e he => (same e).mp he
  rw [ofEntities, made]
  refine congrArg Except.ok (ext_entities fun e => ?_)
  rw [entities, ← same]
  exact or_iff_right (none e)

end Interface

end AbiCompat
