/-
# The order of comparisons

Declarations that are compared on one walk share the note of visited pairs, so that an earlier
comparison can change what a later one finds.  What they find together is the same in every order
as long as no difference is dropped: then a break is found exactly if there is one.

## What is proved

    (no pair that is dropped differs)
      →  a list of declarations is incompatible in one order exactly if it is in another one

and that this is all that can be asked for.  Where a walk drops a difference and finds no break,
there is a global variable whose type breaks callers if the variable comes first, and is taken for
the same if it comes last.  The library with a template argument and a parameter of one type shows
it without one more variable: the order of the two functions decides.

## What is not

Of two verdicts only that much is compared, and the findings behind them are not: even where no
difference is dropped, the order may decide which of two declarations a change is found through,
and so the path of the finding.
-/
import AbiCompat.Proofs.Breaks
import AbiCompat.Proofs.Walk.Ending

namespace AbiCompat

namespace Scope

variable {scope : Scope} {reach : Reach} {entries : List Entry} {w w' : Walk}

/-- The state after the comparison of declarations in order, on a walk of their own. -/
def afterAll (scope : Scope) (entries : List Entry) : Walk :=
  ((scope.carryOutAll (entries.map fun e => (.referenced, .entry e))).run .start).2

/-- The verdict on declarations that are compared in order. -/
def verdictInOrder (scope : Scope) (entries : List Entry) : Verdict :=
  .ofFindings (scope.afterAll entries).findings [] []

/-- A global variable of the two types. -/
def variableOf (p : String × String) : Entry :=
  .global ⟨"v", "", "v", p.1, .pub⟩ ⟨"v", "", "v", p.2, .pub⟩

theorem carryOutAll_tour (scope : Scope) (reach : Reach) (entries : List Entry) (w : Walk) :
    scope.Tour reach w entries
      ((scope.carryOutAll (entries.map fun e => (reach, .entry e))).run w).2 := by
  induction entries generalizing w with
  | nil => exact .done w
  | cons e entries ih =>
      obtain ⟨es, w₁, trace, run, left⟩ := scope.carryOut_tours reach e w
      show scope.Tour reach w (e :: entries) ((scope.carryOutAll (entries.map fun e =>
        (reach, .entry e))).run ((scope.carryOut reach (.entry e)).run w).2).2
      rw [left]
      exact .step trace run (ih _)

theorem carryOutAll_append (scope : Scope) (tasks later : List (Reach × Task)) (w : Walk) :
    (scope.carryOutAll (tasks ++ later)).run w
      = (scope.carryOutAll later).run ((scope.carryOutAll tasks).run w).2 := by
  induction tasks generalizing w with
  | nil => rfl
  | cons task tasks ih => exact ih ((scope.carryOut task.1 task.2).run w).2

theorem afterAll_tour (scope : Scope) (entries : List Entry) :
    scope.Tour .referenced .start entries (scope.afterAll entries) :=
  scope.carryOutAll_tour .referenced entries .start

theorem isIncompatible_verdictInOrder :
    (scope.verdictInOrder entries).isIncompatible = true ↔ (scope.afterAll entries).Broken := by
  rw [verdictInOrder, Verdict.isIncompatible_ofFindings, List.any_nil, Bool.or_false,
    List.any_eq_true]
  rfl

/-! ## Where no difference is dropped -/

/-- Where no difference is dropped, declarations have the same verdict in every order. -/
theorem verdictInOrder_eq_of_perm {entries' : List Entry} (perm : entries'.Perm entries)
    (heeded : ∀ d, scope.DroppedFrom entries d → ¬ scope.DirectlyDiffers d) :
    (scope.verdictInOrder entries').isIncompatible
      = (scope.verdictInOrder entries).isIncompatible := by
  have heeded' (d : String × String) (dropped : scope.DroppedFrom entries' d) :
      ¬ scope.DirectlyDiffers d := heeded d (dropped.mono perm.subset)
  rw [Bool.eq_iff_iff, isIncompatible_verdictInOrder, isIncompatible_verdictInOrder,
    broken_iff (scope.afterAll_tour entries) heeded,
    broken_iff (scope.afterAll_tour entries') heeded']
  exact ⟨fun breaks => breaks.mono perm.subset, fun breaks => breaks.mono perm.symm.subset⟩

/-! ## Where a difference is dropped -/

theorem Tour.broken_of_first {f g : GlobalDecl}
    (tour : scope.Tour .referenced .start (.global f g :: entries) w)
    (differs : scope.DiffersHere (f.typeId, g.typeId)) : w.Broken := by
  cases tour with
  | @step _ _ _ _ es _ trace run rest =>
      have direct : DirectIn es f.typeId g.typeId := by
        cases run with
        | global =>
            cases trace with
            | asked =>
                obtain ⟨es, -, look, -⟩ := @compareIds_trace scope .referenced f.typeId g.typeId
                  (Walk.start.resetStack (Entry.global f g).names) List.not_mem_nil
                refine ⟨_, List.mem_cons_self, ?_⟩
                by_contra silent
                exact (look.settled (Bool.eq_false_iff.mpr silent)).1 differs
      rcases run.used direct with part | ⟨ch, reported, breaks⟩
      · cases part
      · have broken := trace.kept.broken reported breaks
        exact broken.grows ⟨rest.grows.visited, rest.grows.findings⟩

theorem compareGlobals_run_noted {f g : GlobalDecl} (noted : (f.typeId, g.typeId) ∈ w.visited)
    (access : f.access = g.access) :
    ((scope.compareGlobals reach f g).run w).2 = w.resetStack [] := by
  have same : (scope.compareIds reach f.typeId g.typeId).run (w.resetStack [f.name])
      = (.same, w.resetStack [f.name]) := Invariant.compareWithin_run_noted noted
  rw [compareGlobals_eq]
  show ((reportIf reach (((scope.compareIds reach f.typeId g.typeId).run
    (w.resetStack [f.name])).1.isDirect || f.access != g.access) (.global f g)).run
    ((scope.compareIds reach f.typeId g.typeId).run (w.resetStack [f.name])).2).2.resetStack [] = _
  rw [same, access, bne_self_eq_false]
  rfl

theorem findings_append_variable {p : String × String}
    (noted : p ∈ (scope.afterAll entries).visited) :
    (scope.afterAll (entries ++ [variableOf p])).findings = (scope.afterAll entries).findings := by
  rw [afterAll, List.map_append, carryOutAll_append]
  have left : ((scope.compareGlobals .referenced ⟨"v", "", "v", p.1, .pub⟩
      ⟨"v", "", "v", p.2, .pub⟩).run (scope.afterAll entries)).2
      = (scope.afterAll entries).resetStack [] := compareGlobals_run_noted noted rfl
  have found := congrArg Walk.findings left
  exact found

/-- Where a difference is dropped and nothing is found, the place of a global variable among
the declarations decides whether it is found. -/
theorem exists_variable_of_dropped {d : String × String} (dropped : scope.DroppedFrom entries d)
    (differs : scope.DirectlyDiffers d)
    (accepted : (scope.verdictInOrder entries).isIncompatible = false) :
    ∃ p, (scope.verdictInOrder (entries ++ [variableOf p])).isIncompatible = false
      ∧ (scope.verdictInOrder (variableOf p :: entries)).isIncompatible = true := by
  have whole : ¬ (scope.afterAll entries).Broken := by
    rw [← isIncompatible_verdictInOrder, accepted]
    exact Bool.false_ne_true
  obtain ⟨d', -, p, noted, -, here⟩ :=
    swallowed_of_dropped (scope.afterAll_tour entries) whole dropped differs
  refine ⟨p, ?_, ?_⟩
  · rw [verdictInOrder, findings_append_variable noted]
    exact accepted
  · rw [isIncompatible_verdictInOrder]
    exact (scope.afterAll_tour _).broken_of_first here

end Scope

/-- Declarations have the same verdict in every order where no difference is dropped.  Where one
is, and nothing is found, the order decides as soon as a global variable is added whose type
differs. -/
theorem verdict_in_any_order (scope : Scope) (entries : List Entry) :
    ((∀ d, scope.DroppedFrom entries d → ¬ scope.DirectlyDiffers d) →
        ∀ entries', entries'.Perm entries → (scope.verdictInOrder entries').isIncompatible
          = (scope.verdictInOrder entries).isIncompatible)
      ∧ ∀ d, scope.DroppedFrom entries d → scope.DirectlyDiffers d →
        (scope.verdictInOrder entries).isIncompatible = false →
        ∃ p, (scope.verdictInOrder (entries ++ [Scope.variableOf p])).isIncompatible = false
          ∧ (scope.verdictInOrder (Scope.variableOf p :: entries)).isIncompatible = true :=
  ⟨fun heeded _ perm => Scope.verdictInOrder_eq_of_perm perm heeded,
    fun _ dropped differs => Scope.exists_variable_of_dropped dropped differs⟩

/-- The two versions of the library with a template argument and a parameter of one type. -/
def argumentChanges : Scope := ⟨argumentThenParameter "i", argumentThenParameter "l", .plain⟩

/-- In the order of the walk nothing is found there, and in the reverse order the parameter
is. -/
theorem verdict_by_order :
    ¬ ∀ (scope : Scope) (entries : List Entry), (∀ e ∈ entries, e ∈ scope.exports) →
      ∀ entries', entries'.Perm entries → (scope.verdictInOrder entries').isIncompatible
        = (scope.verdictInOrder entries).isIncompatible := by
  intro free
  have same := free argumentChanges _ (fun e listed => listed) _ (List.reverse_perm _)
  revert same
  decide

/-- A changed variable is found before and after another one; a changed parameter is not found
after the template argument, whose difference is dropped. -/
theorem argumentChanges_in_order :
    (∀ d, argumentChanges.DroppedFrom [Scope.variableOf ("i", "i"), Scope.variableOf ("i", "l")] d →
        ¬ argumentChanges.DirectlyDiffers d)
      ∧ (argumentChanges.verdictInOrder
        [Scope.variableOf ("i", "l"), Scope.variableOf ("i", "i")]).isIncompatible
        = (argumentChanges.verdictInOrder
          [Scope.variableOf ("i", "i"), Scope.variableOf ("i", "l")]).isIncompatible
      ∧ (argumentChanges.verdictInOrder argumentChanges.exports).isIncompatible = false
      ∧ ∃ p, (argumentChanges.verdictInOrder
          (argumentChanges.exports ++ [Scope.variableOf p])).isIncompatible = false
        ∧ (argumentChanges.verdictInOrder
          (Scope.variableOf p :: argumentChanges.exports)).isIncompatible = true := by
  have heeded (d : String × String) (dropped : argumentChanges.DroppedFrom
      [Scope.variableOf ("i", "i"), Scope.variableOf ("i", "l")] d) :
      ¬ argumentChanges.DirectlyDiffers d := by
    cases dropped with
    | root listed part =>
        rcases List.mem_pair.mp listed with rfl | rfl <;> cases part
    | part _ part => exact absurd part (Scope.not_parts_of_builtin (by decide))
  have dropped : argumentChanges.DroppedFrom argumentChanges.exports ("i", "l") :=
    .root (List.mem_cons_self : Entry.function ⟨"f", "", "f", ⟨"i", [], ["i"]⟩, .pub⟩
      ⟨"f", "", "f", ⟨"i", [], ["l"]⟩, .pub⟩ ∈ _)
      (.signature (.argument rfl (List.mem_singleton_self _)))
  have differs : argumentChanges.DirectlyDiffers ("i", "l") :=
    .here (.types ⟨rfl, rfl, rfl⟩ (.builtin rfl rfl (.inl (by decide))))
  have accepted :
      (argumentChanges.verdictInOrder argumentChanges.exports).isIncompatible = false := by
    decide
  exact ⟨heeded, (verdict_in_any_order _ _).1 heeded _ (.swap _ _ _), accepted,
    (verdict_in_any_order _ _).2 _ dropped differs accepted⟩

end AbiCompat
