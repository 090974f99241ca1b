/-
# Filling an interface call by call

An interface is filled by calls that add one entity each, and whoever fills it may go on after a
call was refused.  What a call does hangs on what is stored where the entity belongs:

    nothing              the entity is stored there, and nothing else changes
    the same entity      nothing changes, and the call succeeds
    another entity       nothing changes, and the call is refused

These are the constructors of `Call`, and `call_offer` shows that there are no other cases.  From
one call to any number of them it is one induction: after any calls, refused ones among them, a
place of an interface that was empty has the first entity that was offered for it.

A place is a collection together with a key.  Types belong under their ids, everything else under
linker set keys or names, so two collections may well have entities under one key.
-/
import AbiCompat.Proofs.Interfaces
import Mathlib.Data.List.Basic

namespace AbiCompat

/-- The entity belongs under this key of this collection. -/
def Entity.belongs (e : Entity) (c : Collection) (k : String) : Bool :=
  e.collection == c && e.key == k

theorem Entity.belongs_iff {e : Entity} {c : Collection} {k : String} :
    e.belongs c k = true ↔ e.collection = c ∧ e.key = k := by
  rw [belongs, Bool.and_eq_true, beq_iff_eq, beq_iff_eq]

namespace Interface

/-- A call that adds an entity: its answer, and the interface after it. -/
def offer (e : Entity) : StateM Interface (Except KeyConflict Unit) := fun m =>
  match m.add e with
  | .ok n => (.ok (), n)
  | .error c => (.error c, m)

/-- Calls one after the other, also after one that was refused. -/
def offerAll (es : List Entity) : StateM Interface (List (Except KeyConflict Unit)) :=
  es.mapM offer

variable {m n : Interface} {e : Entity} {es : List Entity} {c : Collection} {k : String}

/-! ## One call

A call for a place that is free puts the entity there; a call for a place that is taken changes
nothing. -/

theorem add_of_stored (there : m.stored e.collection e.key = some e) : m.add e = .ok m := by
  obtain ⟨n, added⟩ := add_of_mem (fun _ => id) (mem_entities.mpr there)
  have same : n = m := by
    refine ext_stored fun c k => ?_
    rw [stored_add added]
    split
    · rename_i place
      rw [← place.1, ← place.2, there]
    · rfl
  rw [added, same]

theorem exists_add_of_free (free : m.stored e.collection e.key = none) : ∃ n, m.add e = .ok n := by
  cases added : m.add e with
  | ok n => exact ⟨n, rfl⟩
  | error x =>
      obtain ⟨⟨f, stored, -⟩, -⟩ := add_eq_error_iff.mp added
      rw [free] at stored
      cases stored

/-- What a call does by what is stored where the entity belongs. -/
inductive Call (m : Interface) (e : Entity) : Except KeyConflict Unit → Interface → Prop
  | entered {n : Interface} : m.stored e.collection e.key = none →
      (∀ c k, n.stored c k = if e.collection = c ∧ e.key = k then some e else m.stored c k) →
      Call m e (.ok ()) n
  | again : m.stored e.collection e.key = some e → Call m e (.ok ()) m
  | refused {f : Entity} : m.stored e.collection e.key = some f → f ≠ e →
      Call m e (.error ⟨e.collection, e.key⟩) m

theorem call_offer (m : Interface) (e : Entity) :
    Call m e ((offer e).run m).1 ((offer e).run m).2 := by
  show Call m e (offer e m).1 (offer e m).2
  rw [offer]
  cases stored : m.stored e.collection e.key with
  | none =>
      obtain ⟨n, added⟩ := exists_add_of_free stored
      rw [added]
      exact .entered stored (stored_add added)
  | some f =>
      by_cases same : f = e
      · subst same
        rw [add_of_stored stored]
        exact .again stored
      · have conflict : m.add e = .error ⟨e.collection, e.key⟩ :=
          add_eq_error_iff.mpr ⟨⟨f, stored, same⟩, rfl⟩
        rw [conflict]
        exact .refused stored same

namespace Call

variable {r : Except KeyConflict Unit}

theorem eq_error_iff (call : Call m e r n) {x : KeyConflict} : r = .error x ↔
    (∃ f, m.stored e.collection e.key = some f ∧ f ≠ e) ∧ x = ⟨e.collection, e.key⟩ := by
  cases call with
  | entered free => simp [free]
  | again there => simp [there]
  | refused taken other =>
      constructor
      · intro same
        cases same
        exact ⟨⟨_, taken, other⟩, rfl⟩
      · rintro ⟨-, rfl⟩
        rfl

theorem eq_of_taken (call : Call m e r n) {f : Entity}
    (taken : m.stored e.collection e.key = some f) : n = m := by
  cases call with
  | entered free =>
      rw [free] at taken
      cases taken
  | again | refused => rfl

theorem stored_of_free (call : Call m e r n) (free : m.stored e.collection e.key = none)
    (c : Collection) (k : String) :
    n.stored c k = if e.collection = c ∧ e.key = k then some e else m.stored c k := by
  cases call with
  | entered _ result => exact result c k
  | again taken | refused taken =>
      rw [free] at taken
      cases taken

theorem stored (call : Call m e r n) (c : Collection) (k : String) :
    n.stored c k = (m.stored c k).or ([e].find? (·.belongs c k)) := by
  rw [List.find?_singleton]
  cases before : m.stored e.collection e.key with
  | none =>
      rw [call.stored_of_free before]
      by_cases place : e.collection = c ∧ e.key = k
      · obtain ⟨rfl, rfl⟩ := place
        simp [before, Entity.belongs]
      · rw [if_neg place, if_neg (mt Entity.belongs_iff.mp place), Option.or_none]
  | some f =>
      rw [call.eq_of_taken before]
      by_cases place : e.belongs c k = true
      · obtain ⟨rfl, rfl⟩ := Entity.belongs_iff.mp place
        rw [before, Option.some_or]
      · rw [if_neg place, Option.or_none]

end Call

/-! ## Calls in a row -/

/-- After any calls a place has what it had before, or the first entity that was offered for it. -/
theorem stored_offerAll (m : Interface) (es : List Entity) (c : Collection) (k : String) :
    ((offerAll es).run m).2.stored c k = (m.stored c k).or (es.find? (·.belongs c k)) := by
  induction es generalizing m with
  | nil =>
      rw [List.find?_nil, Option.or_none]
      rfl
  | cons e es ih =>
      have first := (call_offer m e).stored c k
      have rest := ih ((offer e).run m).2
      rw [first, Option.or_assoc, ← List.find?_append] at rest
      rw [offerAll, List.mapM_cons]
      exact rest

theorem offerAll_append (es : List Entity) (e : Entity) (m : Interface) :
    (offerAll (es ++ [e])).run m =
      (((offerAll es).run m).1 ++ [((offer e).run ((offerAll es).run m).2).1],
        ((offer e).run ((offerAll es).run m).2).2) := by
  rw [offerAll, List.mapM_append, List.mapM_cons, List.mapM_nil]
  rfl

/-- Whatever calls were made on an empty interface: what is stored is stored where it belongs, and
it is the first entity that was offered for its place.  The next call is refused exactly if another
entity is there, and it changes nothing unless the place is free.  Then the entity comes to that
place, and every other place of every collection is as before. -/
theorem first_come (es : List Entity) :
    let m := ((offerAll es).run empty).2
    (∀ c k, m.stored c k = es.find? (·.belongs c k))
      ∧ (∀ c k e, m.stored c k = some e → e.collection = c ∧ e.key = k)
      ∧ ∀ e, ∃ r n, (offer e).run m = (r, n)
        ∧ (offerAll (es ++ [e])).run empty = (((offerAll es).run empty).1 ++ [r], n)
        ∧ (∀ x, r = .error x ↔
          (∃ f, m.stored e.collection e.key = some f ∧ f ≠ e) ∧ x = ⟨e.collection, e.key⟩)
        ∧ (∀ f, m.stored e.collection e.key = some f → n = m)
        ∧ (m.stored e.collection e.key = none → ∀ c k,
          n.stored c k = if e.collection = c ∧ e.key = k then some e else m.stored c k) := by
  intro m
  refine ⟨?_, fun _ _ _ => place_of_stored, ?_⟩
  · intro c k
    rw [stored_offerAll, stored_empty, Option.none_or]
  · intro e
    have call := call_offer m e
    exact ⟨_, _, rfl, offerAll_append es e empty, fun _ => call.eq_error_iff,
      fun _ => call.eq_of_taken, call.stored_of_free⟩

example :
    let f : Entity := .functionSymbol ⟨"f", .global⟩
    let g : Entity := .functionSymbol ⟨"f", .weak⟩
    let run := (offerAll [f, g, f]).run empty
    run.1 = [.ok (), .error ⟨.functionSymbols, "f"⟩, .ok ()]
      ∧ run.2.stored .functionSymbols "f" = some f := by
  decide

end Interface

end AbiCompat
