/-
# Each pair is looked at once

A look notes its pair before anything else, and nothing but a look notes a pair: the notes of a
walk are the log of its looks.

## What is proved

The log never has a pair twice, whatever was noted at the start and whatever is compared one after
the other; and it has no pair but those of the ids that declarations and types are written
in.  That is so for one comparison of two ids, for any list of tasks that are carried out on one
walk, and for the walk over two interfaces.

The statement about two states is `Walk.LooksOnce`: the later log is a list of new pairs in front
of the earlier one, without a pair twice, and as `P` says.  It is reflexive and transitive.
-/
import AbiCompat.Proofs.Catalog
import AbiCompat.Proofs.Walk.Tour

namespace AbiCompat

/-! ## The looks between two states -/

/-- The looks between two states are at pairs as `P` says; none is at a pair that was looked
at before, and no two are at the same. -/
def Walk.LooksOnce (P : String × String → Prop) (w w' : Walk) : Prop :=
  ∃ looked, w'.visited = looked ++ w.visited ∧ looked.Nodup ∧ ∀ p ∈ looked, p ∉ w.visited ∧ P p

namespace Walk.LooksOnce

variable {P P' : String × String → Prop} {w w₁ w' v v' : Walk}

theorem refl (P : String × String → Prop) (w : Walk) : w.LooksOnce P w :=
  ⟨[], rfl, List.nodup_nil, fun _ h => absurd h List.not_mem_nil⟩

theorem trans (h : w.LooksOnce P w₁) (h' : w₁.LooksOnce P w') : w.LooksOnce P w' := by
  obtain ⟨looked, log, once, all⟩ := h
  obtain ⟨looked', log', once', all'⟩ := h'
  have apart {p : String × String} (mem : p ∈ looked') : p ∉ looked ∧ p ∉ w.visited := by
    have new := (all' p mem).1
    rw [log, List.mem_append, not_or] at new
    exact new
  refine ⟨looked' ++ looked, by rw [log', log, List.append_assoc], ?_, ?_⟩
  · exact List.nodup_append'.mpr ⟨once', once, fun p mem => (apart mem).1⟩
  · intro p mem
    rcases List.mem_append.mp mem with mem | mem
    · exact ⟨(apart mem).2, (all' p mem).2⟩
    · exact all p mem

theorem mono (h : w.LooksOnce P w') (weaker : ∀ p, P p → P' p) : w.LooksOnce P' w' := by
  obtain ⟨looked, log, once, all⟩ := h
  exact ⟨looked, log, once, fun p mem => (all p mem).imp_right (weaker p)⟩

theorem congr (h : w.LooksOnce P w') (before : v.visited = w.visited)
    (after : v'.visited = w'.visited) : v.LooksOnce P v' := by
  obtain ⟨looked, log, once, all⟩ := h
  exact ⟨looked, by rw [after, before, log], once, by rw [before]; exact all⟩

theorem enter {p : String × String} {name : String} (fresh : p ∉ w.visited) (holds : P p)
    (h : (w.enter p name).LooksOnce P w') : w.LooksOnce P w' := by
  refine trans ⟨[p], rfl, List.nodup_singleton p, ?_⟩ h
  intro q mem
  cases List.mem_singleton.mp mem
  exact ⟨fresh, holds⟩

end Walk.LooksOnce

namespace Scope

variable {scope : Scope} {reach : Reach} {w w' : Walk}

/-- A pair that is asked for, or one of ids that the types of the two interfaces have and
refer to. -/
def Reached (scope : Scope) (asked : String × String → Prop) (p : String × String) : Prop :=
  asked p ∨ p.1 ∈ scope.old.ids ∧ p.2 ∈ scope.new.ids

/-- The pair of an event. -/
def askedIn (es : List Event) (p : String × String) : Prop := ∃ d, .asked p.1 p.2 d ∈ es

/-- Comparisons look at pairs once, and at none but the one they start from and those that
types are written in. -/
theorem looksOnce (scope : Scope) (reach : Reach) : scope.Invariant reach
    (fun w a b _ w' => w.LooksOnce (scope.Reached (· = (a, b))) w')
    (fun w es w' => w.LooksOnce (scope.Reached (askedIn es)) w') where
  done w := .refl _ w
  asked _ _ first rest := by
    refine (first.mono ?_).trans (rest.mono ?_)
    · rintro p (rfl | ids)
      · exact .inl ⟨_, List.mem_cons_self⟩
      · exact .inr ids
    · rintro p (⟨d, mem⟩ | ids)
      · exact .inl ⟨d, List.mem_cons_of_mem _ mem⟩
      · exact .inr ids
  reported _ rest := by
    refine (rest.mono ?_).congr rfl rfl
    rintro p (⟨d, mem⟩ | ids)
    · exact .inl ⟨d, List.mem_cons_of_mem _ mem⟩
    · exact .inr ids
  again _ := .refl _ _
  fresh {w a b es d w'} fresh look _ events := by
    have looks : w.LooksOnce (scope.Reached (· = (a, b))) w' := by
      refine .enter fresh (.inl rfl) (events.mono ?_)
      rintro p (⟨e, mem⟩ | ids)
      · obtain ⟨use, s, t, resolves, part⟩ := look.asked mem
        exact .inr (resolves.mem_ids part)
      · exact .inr ids
    exact looks.congr rfl rfl

theorem compareIds_looksOnce (scope : Scope) (reach : Reach) (a b : String) (w : Walk) :
    w.LooksOnce (scope.Reached (· = (a, b))) ((scope.compareIds reach a b).run w).2 :=
  ((scope.looksOnce reach).compareIds w a b).holds

/-! ## Comparisons one after the other -/

/-- A pair that two declarations lead to. -/
def MetFrom (scope : Scope) (e : Entry) : String × String → Prop :=
  scope.Reached fun p => ∃ use, e.Part use p.1 p.2

theorem looksOnce_of_trace {e : Entry} {es : List Event} {names : List String}
    (trace : Trace (scope.compareIds reach) reach (w.resetStack names) es w') (run : e.Run es) :
    w.LooksOnce (scope.MetFrom e) (w'.resetStack []) := by
  obtain ⟨events, -⟩ := (scope.looksOnce reach).of_trace trace
  refine (events.mono ?_).congr rfl rfl
  rintro p (⟨d, mem⟩ | ids)
  · exact .inl (run.asked mem)
  · exact .inr ids

/-- What is compared on one walk: two ids, or two declarations. -/
inductive Task where
  | ids (a b : String)
  | entry (e : Entry)

/-- Carries out one task. -/
def carryOut (scope : Scope) (reach : Reach) : Task → Walking Difference
  | .ids a b => scope.compareIds reach a b
  | .entry (.function f g) => scope.compareFunctions reach f g
  | .entry (.global f g) => scope.compareGlobals reach f g
  | .entry (.type s t) => scope.compareUserTypes reach s t

/-- Carries out tasks in order on one walk. -/
def carryOutAll (scope : Scope) : List (Reach × Task) → Walking Unit
  | [] => return ()
  | (reach, task) :: rest => do
    let _ ← scope.carryOut reach task
    scope.carryOutAll rest

theorem Tours.looksOnce {step : Walking Difference} {e : Entry} (tours : scope.Tours reach step e)
    (w : Walk) : w.LooksOnce (scope.MetFrom e) (step.run w).2 := by
  obtain ⟨es, w₁, trace, run, left⟩ := tours w
  rw [left]
  exact looksOnce_of_trace trace run

theorem carryOut_tours (scope : Scope) (reach : Reach) (e : Entry) :
    scope.Tours reach (scope.carryOut reach (.entry e)) e := by
  cases e with
  | function f g => exact compareFunctions_tours f g
  | global f g => exact compareGlobals_tours f g
  | type s t => exact compareUserTypes_tours s t

theorem carryOut_looksOnce (scope : Scope) (reach : Reach) (task : Task) (w : Walk) :
    w.LooksOnce (fun _ => True) ((scope.carryOut reach task).run w).2 := by
  cases task with
  | ids a b => exact (scope.compareIds_looksOnce reach a b w).mono fun _ _ => trivial
  | entry e => exact ((scope.carryOut_tours reach e).looksOnce w).mono fun _ _ => trivial

/-- However many tasks are carried out on one walk, it looks at each pair once. -/
theorem carryOutAll_looksOnce (scope : Scope) (tasks : List (Reach × Task)) (w : Walk) :
    w.LooksOnce (fun _ => True) ((scope.carryOutAll tasks).run w).2 := by
  induction tasks generalizing w with
  | nil => exact .refl _ w
  | cons task rest ih => exact (scope.carryOut_looksOnce task.1 task.2 w).trans (ih _)

/-! ## The whole walk -/

end Scope

/-- The ids that the declarations and the types of an interface are written in. -/
def Interface.writtenIds (m : Interface) : List String :=
  m.ids ++ m.functions.items.flatMap (fun f => f.signature.ids)
    ++ m.globals.items.map GlobalDecl.typeId

theorem Interface.id_mem_ids {m : Interface} {t : TypeDecl} (listed : t ∈ m.types.items) :
    t.id ∈ m.ids :=
  List.mem_flatMap.mpr ⟨t, listed, List.mem_cons_self⟩

theorem Interface.id_mem_ids_of_select {m : Interface} {select : TypeDecl → Bool} {t : TypeDecl}
    (listed : t ∈ m.userDefined.filter select) : t.id ∈ m.ids :=
  id_mem_ids (List.mem_of_mem_filter (List.mem_of_mem_filter listed))

namespace Scope

variable {scope : Scope} {reach : Reach} {w w' : Walk} {e : Entry}

/-- The pairs of ids that the declarations and the types of two interfaces are written in. -/
def Written (scope : Scope) (p : String × String) : Prop :=
  p.1 ∈ scope.old.writtenIds ∧ p.2 ∈ scope.new.writtenIds

theorem written_of_ids {a b : String} (old : a ∈ scope.old.ids) (new : b ∈ scope.new.ids) :
    scope.Written (a, b) :=
  ⟨List.mem_append_left _ (List.mem_append_left _ old),
    List.mem_append_left _ (List.mem_append_left _ new)⟩

theorem written_of_export (listed : e ∈ scope.exports) {use : Use} {a b : String}
    (part : e.Part use a b) : scope.Written (a, b) := by
  simp only [Written, Interface.writtenIds, List.mem_append]
  cases part with
  | signature part =>
      have common := commonFunction_of_entry (.inl listed)
      obtain ⟨ha, hb⟩ := part.mem_ids
      exact ⟨.inl (.inr (List.mem_flatMap.mpr ⟨_, common.old, ha⟩)),
        .inl (.inr (List.mem_flatMap.mpr ⟨_, Catalog.mem_of_find? common.new, hb⟩))⟩
  | global =>
      have common := commonGlobal_of_entry (.inl listed)
      exact ⟨.inr (List.mem_map_of_mem common.old),
        .inr (List.mem_map_of_mem (Catalog.mem_of_find? common.new))⟩
  | type => exact absurd listed type_notMem_exports

theorem written_of_select {select : TypeDecl → Bool}
    (listed : e ∈ (scope.keptPairs TypeDecl.linkKey
      ((Catalog.ofList (scope.old.userDefined.filter select) : Catalog TypeDecl.linkKey).common
        (Catalog.ofList (scope.new.userDefined.filter select) : Catalog TypeDecl.linkKey))).map
      fun p => .type p.1 p.2) {use : Use} {a b : String} (part : e.Part use a b) :
    scope.Written (a, b) := by
  obtain ⟨⟨s, t⟩, kept, rfl⟩ := List.mem_map.mp listed
  obtain ⟨hs, ht, -⟩ := mem_keptPairs.mp kept
  cases part with
  | type =>
      exact written_of_ids (Interface.id_mem_ids_of_select (Catalog.mem_of_mem_ofList hs))
        (Interface.id_mem_ids_of_select (Catalog.mem_of_mem_ofList (Catalog.mem_of_find? ht)))

theorem written_of_userType (listed : e ∈ scope.userTypes) {use : Use} {a b : String}
    (part : e.Part use a b) : scope.Written (a, b) := by
  rcases List.mem_append.mp listed with record | enum
  · exact written_of_select record part
  · exact written_of_select enum part

theorem Tour.looksOnce {entries : List Entry} (tour : scope.Tour reach w entries w')
    (written : ∀ e ∈ entries, ∀ use a b, e.Part use a b → scope.Written (a, b)) :
    w.LooksOnce scope.Written w' := by
  induction tour with
  | done => exact .refl _ _
  | @step w w₁ w' e es rest trace run _ ih =>
      refine ((looksOnce_of_trace trace run).mono ?_).trans
        (ih fun e mem => written e (List.mem_cons_of_mem _ mem))
      rintro p (⟨use, part⟩ | ⟨old, new⟩)
      · exact written e List.mem_cons_self use _ _ part
      · exact written_of_ids old new

/-- The walk of a comparison looks at each pair once, and at none but those that the two
interfaces are written in. -/
theorem walk_looksOnce (scope : Scope) :
    Walk.start.LooksOnce scope.Written (scope.walk.run .start).2 := by
  obtain ⟨w, exported, rest⟩ := scope.walk_tour
  refine (exported.looksOnce fun e listed _ _ _ part => written_of_export listed part).trans
    (rest.looksOnce fun e listed _ _ _ part => ?_)
  split at listed
  · exact written_of_userType listed part
  · exact absurd listed List.not_mem_nil

end Scope

end AbiCompat
