/-
# Noted pairs were looked at

A pair is noted only by a look at it, and the look has left its marks: what it asked for is noted,
and what it reported is found.  So of a pair that is noted in the end, all that a look at it must
have done can be taken for done, with no regard to when that was.
-/
import AbiCompat.Proofs.Walk.Tour

namespace AbiCompat

namespace Scope

variable {scope : Scope} {reach : Reach} {w w' : Walk} {p : String × String}

/-- A look at the pair has left its marks. -/
inductive Looked (scope : Scope) (reach : Reach) (w : Walk) (p : String × String) : Prop
  | mk {es : List Event} {d : Difference} : scope.Looks p.1 p.2 es d →
      (∀ {a b e}, .asked a b e ∈ es → (a, b) ∈ w.visited) →
      (∀ {c}, .reported c ∈ es → ∃ f ∈ w.findings, f.reach = reach ∧ f.change = c) →
      Looked scope reach w p

theorem Looked.grows (h : scope.Looked reach w p) (grows : w.Grows w') :
    scope.Looked reach w' p := by
  obtain ⟨look, asked, reported⟩ := h
  refine ⟨look, fun mem => grows.visited (asked mem), ?_⟩
  intro c mem
  obtain ⟨f, hf, marks⟩ := reported mem
  exact ⟨f, grows.findings hf, marks⟩

/-- Every pair that is noted meanwhile was looked at. -/
def MarksEvents (scope : Scope) (reach : Reach) (w w' : Walk) : Prop :=
  ∀ p ∈ w'.visited, p ∈ w.visited ∨ scope.Looked reach w' p

theorem marks (scope : Scope) (reach : Reach) :
    scope.Invariant reach (fun w _ _ _ w' => scope.MarksEvents reach w w')
      (fun w _ w' => scope.MarksEvents reach w w') where
  done w _ h := .inl h
  asked _ kept first rest p h := by
    rcases rest p h with before | looked
    · exact (first p before).imp_right fun looked => looked.grows kept.grows
    · exact .inr looked
  reported _ rest := rest
  again _ _ h := .inl h
  fresh {w a b es d w'} _ look kept events p h := by
    rcases events p h with before | looked
    · rcases List.mem_cons.mp before with rfl | before
      · exact .inr (Looked.grows ⟨look, kept.asked, kept.reported⟩ (.leave w'))
      · exact .inl before
    · exact .inr (looked.grows (.leave w'))

theorem Tour.marks {entries : List Entry} (tour : scope.Tour reach w entries w') :
    scope.MarksEvents reach w w' := by
  refine tour.keeps (P := fun v => scope.MarksEvents reach w v) ?_ (fun p h => .inl h)
  intro v v₁ names e es _ trace _ before p h
  obtain ⟨events, -⟩ := (scope.marks reach).of_trace trace
  rcases events p h with old | looked
  · exact (before p old).imp_right fun looked => looked.grows (grows_of_trace trace)
  · exact .inr (looked.grows ⟨List.Subset.refl _, List.Subset.refl _⟩)

/-- Every pair that a walk notes was looked at. -/
theorem Tour.looked {entries : List Entry} (tour : scope.Tour reach .start entries w) :
    ∀ p ∈ w.visited, scope.Looked reach w p :=
  fun p h => (tour.marks p h).resolve_left List.not_mem_nil

end Scope

end AbiCompat
