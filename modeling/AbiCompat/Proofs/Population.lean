/-
# What a list of entities makes

Entities are entered one after the other, and each goes to the place that its collection and its
key give it.

## What is proved

A list makes an interface exactly if no two of its entities claim one place for different
contents.  Then the interface holds what is in the list, so that neither the order nor repetitions
show.  Otherwise the first entity whose place was taken by another one is the conflict, and it is
named in the error with its key and its collection.

The entries of a dump are entered in the order of its lists, so the same holds of dumps that fit
their schema: two dumps with the same entries are dumps of one interface (`load_congr`).

## What is not

Entities of different collections never clash, whatever keys they have; a type may refer to ids
that no type has.  Neither is looked at when an interface is made.  What a dump with a fault in its
text comes to is the matter of its grammar.
-/
import AbiCompat.Proofs.Dump

namespace AbiCompat

/-! ## Lists without a conflict -/

/-- The entities claim one key of one collection, and they differ. -/
structure Entity.Clashes (e f : Entity) : Prop where
  collection : e.collection = f.collection
  key : e.key = f.key
  differ : e ≠ f

instance (e f : Entity) : Decidable (e.Clashes f) :=
  decidable_of_iff (e.collection = f.collection ∧ e.key = f.key ∧ e ≠ f)
    ⟨fun ⟨collection, key, differ⟩ => ⟨collection, key, differ⟩,
      fun clash => ⟨clash.collection, clash.key, clash.differ⟩⟩

/-- Entities of one collection and one key are equal. -/
def Consistent (es : List Entity) : Prop := ∀ e ∈ es, ∀ f ∈ es, ¬ e.Clashes f

instance (es : List Entity) : Decidable (Consistent es) :=
  inferInstanceAs (Decidable (∀ e ∈ es, ∀ f ∈ es, ¬ e.Clashes f))

/-- The conflict is about the first entity of the list that clashes with an earlier one. -/
def FirstConflict (es : List Entity) (c : KeyConflict) : Prop :=
  ∃ before e after, es = before ++ e :: after ∧ Consistent before
    ∧ (∃ f ∈ before, f.Clashes e) ∧ c = ⟨e.collection, e.key⟩

/-- What comes of entering the entities of a list. -/
structure Populates (es : List Entity) (r : Except KeyConflict Interface) : Prop where
  accepted : (∃ m, r = .ok m) ↔ Consistent es
  holds : ∀ m, r = .ok m ↔ Consistent es ∧ ∀ e, e ∈ m.entities ↔ e ∈ es
  refused : ∀ c, r = .error c ↔ FirstConflict es c

namespace Interface

variable {m n : Interface} {e : Entity} {es : List Entity} {c : KeyConflict}

theorem consistent_of_mem (within : ∀ e ∈ es, e ∈ m.entities) : Consistent es := by
  intro e he f hf clash
  exact clash.differ (eq_of_place (within e he) (within f hf) clash.collection clash.key)

/-- An entity is refused exactly if it clashes with one that is there. -/
theorem add_eq_error_iff_clashes :
    m.add e = .error c ↔ (∃ f ∈ m.entities, f.Clashes e) ∧ c = ⟨e.collection, e.key⟩ := by
  rw [add_eq_error_iff]
  refine and_congr_left fun _ => ⟨?_, ?_⟩
  · rintro ⟨f, stored, differ⟩
    obtain ⟨mem, collection, key⟩ := stored_eq_some_iff.mp stored
    exact ⟨f, mem, collection, key, differ⟩
  · rintro ⟨f, mem, clash⟩
    exact ⟨f, stored_eq_some_iff.mpr ⟨mem, clash.collection, clash.key⟩, clash.differ⟩

/-! ## Runs -/

theorem addAll_append (m : Interface) (es fs : List Entity) :
    m.addAll (es ++ fs) = m.addAll es >>= fun n => n.addAll fs :=
  List.foldlM_append

theorem addAll_cons (m : Interface) (e : Entity) (es : List Entity) :
    m.addAll (e :: es) = m.add e >>= fun n => n.addAll es :=
  List.foldlM_cons

theorem mem_entities_addAll (run : m.addAll es = .ok n) (f : Entity) :
    f ∈ n.entities ↔ f ∈ m.entities ∨ f ∈ es := by
  induction es generalizing m with
  | nil =>
      cases run
      simp
  | cons e es ih =>
      rw [addAll_cons] at run
      cases added : m.add e with
      | error c =>
          rw [added] at run
          cases run
      | ok m₁ =>
          rw [added] at run
          rw [ih run, mem_entities_add added, List.mem_cons, or_assoc]

/-- A run that ends in a conflict goes well up to the entity that is refused. -/
theorem exists_refused (run : m.addAll es = .error c) : ∃ before e after n,
    es = before ++ e :: after ∧ m.addAll before = .ok n ∧ n.add e = .error c := by
  induction es generalizing m with
  | nil => cases run
  | cons e es ih =>
      rw [addAll_cons] at run
      cases added : m.add e with
      | error x =>
          rw [added] at run
          cases run
          exact ⟨[], e, es, m, rfl, rfl, added⟩
      | ok m₁ =>
          rw [added] at run
          obtain ⟨before, f, after, n, rfl, first, refused⟩ := ih run
          refine ⟨e :: before, f, after, n, rfl, ?_, refused⟩
          rw [addAll_cons, added]
          exact first

/-! ## Lists

A list whose entities do not clash makes an interface; a list that has two which do is refused at
the first one that clashes with an earlier one.  Lists with the same members make the same
interface. -/

theorem mem_entities_ofEntities (made : ofEntities es = .ok m) (e : Entity) :
    e ∈ m.entities ↔ e ∈ es := by
  have none : e ∉ empty.entities := by
    rw [mem_entities, stored_empty]
    exact (Option.some_ne_none e).symm
  rw [mem_entities_addAll made]
  exact or_iff_right none

theorem consistent_of_ofEntities (made : ofEntities es = .ok m) : Consistent es :=
  consistent_of_mem fun e he => (mem_entities_ofEntities made e).mpr he

theorem firstConflict_of_ofEntities (refused : ofEntities es = .error c) : FirstConflict es c := by
  obtain ⟨before, e, after, n, rfl, made, conflict⟩ := exists_refused refused
  obtain ⟨⟨f, mem, clash⟩, rfl⟩ := add_eq_error_iff_clashes.mp conflict
  exact ⟨before, e, after, rfl, consistent_of_ofEntities made,
    ⟨f, (mem_entities_ofEntities made f).mp mem, clash⟩, rfl⟩

end Interface

theorem FirstConflict.not_consistent {es : List Entity} {c : KeyConflict}
    (first : FirstConflict es c) : ¬ Consistent es := by
  obtain ⟨before, e, after, rfl, -, ⟨f, mem, clash⟩, -⟩ := first
  intro consistent
  exact consistent f (List.mem_append_left _ mem) e
    (List.mem_append_right _ List.mem_cons_self) clash

namespace Interface

variable {m : Interface} {es es' : List Entity} {c : KeyConflict}

theorem exists_ofEntities (consistent : Consistent es) : ∃ m, ofEntities es = .ok m := by
  cases made : ofEntities es with
  | ok m => exact ⟨m, rfl⟩
  | error c => exact absurd consistent (firstConflict_of_ofEntities made).not_consistent

theorem ofEntities_of_firstConflict (first : FirstConflict es c) : ofEntities es = .error c := by
  obtain ⟨before, e, after, rfl, consistent, ⟨f, mem, clash⟩, rfl⟩ := first
  obtain ⟨n, made⟩ := exists_ofEntities consistent
  have refused : n.add e = .error ⟨e.collection, e.key⟩ :=
    add_eq_error_iff_clashes.mpr ⟨⟨f, (mem_entities_ofEntities made f).mpr mem, clash⟩, rfl⟩
  rw [ofEntities] at made ⊢
  rw [addAll_append, made]
  show n.addAll (e :: after) = _
  rw [addAll_cons, refused]
  rfl

theorem populates_ofEntities (es : List Entity) : Populates es (ofEntities es) where
  accepted := ⟨fun ⟨_, made⟩ => consistent_of_ofEntities made, exists_ofEntities⟩
  holds m := by
    constructor
    · intro made
      exact ⟨consistent_of_ofEntities made, mem_entities_ofEntities made⟩
    · rintro ⟨-, same⟩
      exact ofEntities_eq_ok fun e => (same e).symm
  refused c := ⟨firstConflict_of_ofEntities, ofEntities_of_firstConflict⟩

theorem ofEntities_congr (same : ∀ e, e ∈ es' ↔ e ∈ es) :
    ofEntities es' = .ok m ↔ ofEntities es = .ok m := by
  have exactly (fs : List Entity) : ofEntities fs = .ok m ↔ ∀ e, e ∈ fs ↔ e ∈ m.entities :=
    ⟨fun made e => (mem_entities_ofEntities made e).symm, ofEntities_eq_ok⟩
  rw [exactly, exactly]
  exact forall_congr' fun e => by rw [same e]

end Interface

/-! ## Dumps -/

namespace Dump

/-- The interface of a dump that fits its schema is made from the entries, list after list. -/
theorem load_of_decode {bs : Bytes} {document : schema.El}
    (read : schema.decode bs = .ok document) :
    load bs = (Interface.ofEntities (entitiesOf Form.all document)).mapError .conflict := by
  simp only [load, read]
  cases Interface.ofEntities (entitiesOf Form.all document) <;> rfl

/-- Dumps with the same entries are dumps of the same interface. -/
theorem load_congr {bs bs' : Bytes} {document document' : schema.El} {m : Interface}
    (read : schema.decode bs = .ok document) (read' : schema.decode bs' = .ok document')
    (same : ∀ e, e ∈ entitiesOf Form.all document' ↔ e ∈ entitiesOf Form.all document) :
    load bs' = .ok m ↔ load bs = .ok m := by
  have made (es : List Entity) :
      (Interface.ofEntities es).mapError LoadError.conflict = .ok m ↔
        Interface.ofEntities es = .ok m := by
    cases Interface.ofEntities es <;> simp [Except.mapError]
  rw [load_of_decode read, load_of_decode read', made, made, Interface.ofEntities_congr same]

end Dump

/-! ## Both -/

open Interface Dump in
/-- A list makes an interface exactly if its entities do not clash; the interface is the one that
holds them, whatever their order and number, and otherwise the first one that clashes is the
conflict.  A dump makes what its entries make, in the order of its lists. -/
theorem population (es : List Entity) :
    Populates es (ofEntities es)
    ∧ (∀ es', (∀ e, e ∈ es' ↔ e ∈ es) → ∀ m, ofEntities es' = .ok m ↔ ofEntities es = .ok m)
    ∧ (∀ bs document, schema.decode bs = .ok document →
        ∃ r, load bs = r.mapError .conflict ∧ Populates (entitiesOf Form.all document) r)
    ∧ (∀ bs bs' document document', schema.decode bs = .ok document →
        schema.decode bs' = .ok document' →
        (∀ e, e ∈ entitiesOf Form.all document' ↔ e ∈ entitiesOf Form.all document) →
        ∀ m, load bs' = .ok m ↔ load bs = .ok m) := by
  refine ⟨populates_ofEntities es, ?_, ?_, ?_⟩
  · intro es' same m
    exact ofEntities_congr same
  · intro bs document read
    exact ⟨_, load_of_decode read, populates_ofEntities _⟩
  · intro bs bs' document document' read read' same m
    exact load_congr read read' same

/-- Two symbols of one name. -/
def sharedName : Interface :=
  { Interface.empty with
    functionSymbols := .ofList [⟨"f", .global⟩]
    objectSymbols := .ofList [⟨"f", .weak⟩] }

open Interface Dump in
/-- A function and an object may share a name, but no two functions may; the order of the entries
does not show, and neither do copies. -/
theorem population_of_sharedName :
    let f : Entity := .functionSymbol ⟨"f", .global⟩
    let o : Entity := .objectSymbol ⟨"f", .weak⟩
    ofEntities [f, o, f, .functionSymbol ⟨"f", .weak⟩, .objectSymbol ⟨"f", .global⟩]
        = .error ⟨.functionSymbols, "f"⟩
      ∧ ofEntities [f, o] = .ok sharedName
      ∧ ofEntities [o, f, o] = .ok sharedName
      ∧ load (Bytes.ofText (save sharedName)) = .ok sharedName := by
  intro f o
  have made : ofEntities [f, o] = .ok sharedName := by decide
  have same : ∀ e, e ∈ [o, f, o] ↔ e ∈ [f, o] := by
    intro e
    simp only [List.mem_cons, List.not_mem_nil, or_false]
    tauto
  refine ⟨?_, made, ((population [f, o]).2.1 _ same _).mpr made, ?_⟩
  · refine ((population _).1.refused _).mpr ⟨[f, o, f], _, _, rfl, by decide, ?_, rfl⟩
    exact ⟨f, List.mem_cons_self, by decide⟩
  · obtain ⟨r, loaded, populates⟩ := (population []).2.2.1 _ _
      (Schema.decode_prettyDocument schema_isRegular (document sharedName))
    have whole : r = .ok sharedName := by
      refine (populates.holds _).mpr ⟨by decide, ?_⟩
      have entries : entitiesOf Form.all (document sharedName) = sharedName.entities := by decide
      intro e
      rw [entries]
    rw [save, loaded, whole]
    rfl

end AbiCompat
