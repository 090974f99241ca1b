/-
# What a step of a comparison leaves as it was

Whatever is compared, and in whatever state: when the step is done, the path is the one of before,
what was noted is noted, and the findings of before have further ones behind them, which are
changes of records and enumerations.

## What is proved

That every step of the rules does so, from the comparison of two ids down to the judgement on two
fields: each of them extends every state (`Walking.Extending`), not only states that a walk can
come to.  A comparison of two ids notes them; it changes nothing, and answers that they are the
same, exactly if they were noted before.

## How

A step touches the state in two ways only, by the comparisons that it asks for and by its
reports.  So it keeps the frame if what it reports are changes of types (`OnlyTypes`), since every
comparison of two ids keeps it.  That the comparisons of ids do, however deep they go, is an
induction over walks.
-/
import AbiCompat.Proofs.Paths
import AbiCompat.Proofs.Walk.Found

namespace AbiCompat

/-- The later state has the path of the earlier one, its notes, and its findings followed by
changes of types with this reach. -/
structure Walk.Extends (reach : Reach) (w w' : Walk) : Prop where
  stack : w'.stack = w.stack
  visited : w.visited ⊆ w'.visited
  findings : ∃ more, w'.findings = w.findings ++ more
    ∧ ∀ f ∈ more, f.reach = reach ∧ f.change.OfType

/-- The step extends every state. -/
def Walking.Extending {α : Type} (reach : Reach) (step : Walking α) : Prop :=
  ∀ w : Walk, w.Extends reach (step.run w).2

variable {scope : Scope} {reach : Reach}

/-! ## From events to states -/

/-- Events that report changes of types only. -/
def OnlyTypes (es : List Event) : Prop := ∀ ch, .reported ch ∈ es → ch.OfType

theorem onlyTypes_of_quiet {es : List Event} (quiet : ∀ {ch}, .reported ch ∉ es) :
    OnlyTypes es :=
  fun _ mem => absurd mem quiet

/-- Events that report changes of types only lead to a state that extends the first one. -/
theorem extends_of_trace {w w' : Walk} {es : List Event}
    (trace : Trace (scope.compareIds reach) reach w es w') (types : OnlyTypes es) :
    w.Extends reach w' where
  stack := ((scope.traces reach).of_trace trace).1.1
  visited := trace.kept.grows.visited
  findings := by
    obtain ⟨found, -⟩ := (scope.finds reach).of_trace trace
    exact found.mono fun ch h => h.elim id (types ch)

theorem Does.extending {α : Type} {step : Walking α} {post : List Event → α → Prop}
    (does : Does (scope.compareIds reach) reach step post)
    (types : ∀ es x, post es x → OnlyTypes es) : step.Extending reach := by
  intro w
  obtain ⟨es, trace, holds⟩ := does w
  exact extends_of_trace trace (types es _ holds)

namespace Scope

/-! ## The comparison of two ids -/

theorem compareIds_extending (scope : Scope) (reach : Reach) (a b : String) :
    (scope.compareIds reach a b).Extending reach := by
  intro w
  have step := (scope.traces reach).compareIds w a b
  exact ⟨step.holds.1, step.grows.visited, ((scope.finds reach).compareIds w a b).holds⟩

/-- A comparison of two ids changes nothing, and answers that they are the same, exactly if they
are noted already. -/
theorem noted_iff_compareIds_run {w : Walk} {a b : String} :
    (a, b) ∈ w.visited ↔ (scope.compareIds reach a b).run w = (.same, w) := by
  constructor
  · exact fun noted => Invariant.compareWithin_run_noted noted
  · intro unchanged
    have noted := ((scope.anything reach).compareIds w a b).noted
    rw [unchanged] at noted
    exact noted

end Scope

/-! ## The clauses -/

section Clauses

variable {visit : Visit} {s t : TypeDecl}

theorem pure_onlyTypes {α : Type} (x : α) :
    Does visit reach (pure x) fun es _ => OnlyTypes es :=
  Does.pure (onlyTypes_of_quiet List.not_mem_nil)

theorem compareEnums_onlyTypes (visit : Visit) (a b : EnumLayout) :
    Does visit reach (scope.compareEnums reach s t a b) fun es _ => OnlyTypes es := by
  by_cases key : s.linkKey = t.linkKey
  · rw [compareEnums_eq scope key]
    refine Does.bind reportIf_does ?_
    rintro _ _ rfl
    refine Does.pure ?_
    rw [List.append_nil]
    exact fun ch mem => ofType_of_mem_reportOf_enum mem
  · rw [Scope.compareEnums, if_pos key]
    exact pure_onlyTypes _

theorem compareRecords_onlyTypes (a b : RecordLayout) :
    Does visit reach (compareRecords visit reach s t a b) fun es _ => OnlyTypes es := by
  by_cases h : comparable s t a b
  · exact (compareRecords_does s t a b h).mono fun _ _ run _ mem => run.ofType mem
  · rw [compareRecords_eq_of_not h]
    exact pure_onlyTypes _

theorem compareTypes_onlyTypes (scope : Scope) (s t : TypeDecl) :
    Does visit reach (scope.compareTypes visit reach s t) fun es _ => OnlyTypes es := by
  cases ignored : scope.policy.ignores t.linkKey with
  | true =>
      rw [Scope.compareTypes, if_pos ignored]
      exact pure_onlyTypes _
  | false => exact (compareTypes_does scope s t ignored).mono fun _ _ run _ mem => run.ofType mem

theorem judge_onlyTypes (p q : Located) (k : Docket) :
    Does visit reach ((judge visit p q).run k) fun es _ => OnlyTypes es := by
  cases known : k.lookup (p.2, q.2) with
  | some j =>
      rw [judge_run_of_some known]
      exact pure_onlyTypes _
  | none =>
      rw [judge_run_of_none known]
      refine Does.bind Does.ask ?_
      rintro _ d rfl
      refine Does.pure (onlyTypes_of_quiet fun mem => ?_)
      cases List.mem_singleton.mp mem

end Clauses

/-- Whatever the two versions, the policy, the reach and the state: every step of a comparison
leaves the path as it was, keeps what was noted, and appends to the findings only changes of
records and enumerations with its reach.  A comparison of two ids notes them.  It changes nothing,
and answers that they are the same, exactly if they were noted before. -/
theorem steps_extend (scope : Scope) (reach : Reach) :
    let visit := scope.compareIds reach
    (∀ a b, (visit a b).Extending reach)
      ∧ (∀ a b w, (a, b) ∈ ((visit a b).run w).2.visited)
      ∧ (∀ a b w, (a, b) ∈ w.visited ↔ (visit a b).run w = (.same, w))
      ∧ (∀ s t, (scope.compareTypes visit reach s t).Extending reach)
      ∧ (∀ a b, (compareSignatures visit a b).Extending reach)
      ∧ (∀ ps qs, (compareParams visit ps qs).Extending reach)
      ∧ (∀ s t a b, (scope.compareEnums reach s t a b).Extending reach)
      ∧ (∀ s t a b, (compareRecords visit reach s t a b).Extending reach)
      ∧ (∀ olds news, (compareFields visit olds news).Extending reach)
      ∧ (∀ p q docket, ((judge visit p q).run docket).Extending reach)
      ∧ ∀ as bs, (basesAgree visit as bs).Extending reach := by
  intro visit
  refine ⟨scope.compareIds_extending reach, fun a b w => ?_, fun _ _ _ =>
    Scope.noted_iff_compareIds_run, fun s t => ?_, fun a b => ?_, fun ps qs => ?_,
    fun s t a b => ?_, fun s t a b => ?_, fun olds news => ?_, fun p q docket => ?_,
    fun as bs => ?_⟩
  · exact ((scope.anything reach).compareIds w a b).noted
  · exact (compareTypes_onlyTypes scope s t).extending fun _ _ types => types
  · exact (compareSignatures_does a b).extending fun _ _ run => onlyTypes_of_quiet run.quiet
  · exact (compareParams_does ps qs).extending fun _ _ run => onlyTypes_of_quiet run.quiet
  · exact (compareEnums_onlyTypes visit a b).extending fun _ _ types => types
  · exact (compareRecords_onlyTypes a b).extending fun _ _ types => types
  · exact (compareFields_does olds news).extending fun _ _ ⟨_, run⟩ => onlyTypes_of_quiet run.quiet
  · exact (judge_onlyTypes p q docket).extending fun _ _ types => types
  · exact (basesAgree_does as bs).extending fun _ _ run => onlyTypes_of_quiet run.quiet

end AbiCompat
