/-
# Comparisons in lockstep

Two comparisons that do the same to the parts of a pair, in the states in which the parts are met,
make the same look at the pair.  So a look at a pair can be moved from one comparison to another,
with no word about what it asks for and finds.

This is what `Follows` comes to with no id renamed, and nothing is proved again for it.
-/
import AbiCompat.Proofs.Renaming.Looks

namespace AbiCompat

/-- From every good state the two steps give the same answer and lead to the same state,
which is good again. -/
def InStep {α : Type} (good : Walk → Prop) (x y : Walking α) : Prop :=
  ∀ w, good w → x.run w = y.run w ∧ good (x.run w).2

section InStep

variable {visit visit' : Visit} {reach : Reach} {good : Walk → Prop}

theorem inStep_iff_follows {α : Type} {x y : Walking α} :
    InStep good x y ↔ Follows .none good id x y := by
  unfold InStep Follows
  simp only [Walk.rename_none]
  refine forall_congr' fun w => forall_congr' fun start => and_congr_left' ?_
  exact eq_comm

/-- A look at a pair depends on the comparison of its parts. -/
theorem look_inStep (reports : ∀ w change, good w → good (w.report reach change))
    (scope : Scope) {a b : String}
    (parts : ∀ {use c d}, scope.Parts use (a, b) (c, d) →
      InStep good (visit c d) (visit' c d)) :
    InStep good (scope.look visit reach a b) (scope.look visit' reach a b) := by
  refine inStep_iff_follows.mpr ?_
  exact (Scope.SameUnder.refl scope).look reports ⟨trivial, trivial⟩ fun part =>
    inStep_iff_follows.mp (parts part)

end InStep

end AbiCompat
