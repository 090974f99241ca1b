/-
# Bounds on what a walk answers and finds

A walk stays within a set of pairs, answers direct for pairs of a second set only, and finds no
changes but those of a third one, as long as no look leads out of the three.  A look may rely on
the bounds for whatever it has asked for.

This is one induction over walks with its invariant left open, for those properties that are upper
bounds: that findings are justified, that what is found breaks callers, that nothing is found
between versions that agree.  Lower bounds are of another kind, since a pair that comes up again is
answered with no look at it.
-/
import AbiCompat.Proofs.Walk.Tour

namespace AbiCompat

namespace Scope

variable {scope : Scope} {S D : String × String → Prop} {J : Change → Prop}

/-- Sets that no look leads out of: `S` of the pairs that are met, `D` of those that are
answered direct, and `J` of the changes that are found. -/
structure Bounds (scope : Scope) (S D : String × String → Prop) (J : Change → Prop) : Prop where
  parts : ∀ {p q}, S p → scope.Opens p q → S q
  answer : ∀ {a b es d}, S (a, b) → scope.Looks a b es d →
    (∀ {c e}, DirectIn es c e → D (c, e)) → d.isDirect = true → D (a, b)
  reported : ∀ {a b es d ch}, S (a, b) → scope.Looks a b es d →
    (∀ {c e}, DirectIn es c e → D (c, e)) → .reported ch ∈ es → J ch

/-- The comparison of a pair within the bounds keeps to them. -/
def BoundedVisit (S D : String × String → Prop) (J : Change → Prop) (w : Walk) (a b : String)
    (d : Difference) (w' : Walk) : Prop :=
  S (a, b) → (d.isDirect = true → D (a, b)) ∧ ∀ f ∈ w'.findings, f ∈ w.findings ∨ J f.change

/-- The same of events, but for what they report themselves. -/
def BoundedEvents (S D : String × String → Prop) (J : Change → Prop) (w : Walk)
    (es : List Event) (w' : Walk) : Prop :=
  (∀ {a b d}, .asked a b d ∈ es → S (a, b)) → (∀ {a b}, DirectIn es a b → D (a, b)) ∧
    ∀ f ∈ w'.findings, f ∈ w.findings ∨ J f.change ∨ .reported f.change ∈ es

theorem Bounds.invariant (bounds : scope.Bounds S D J) (reach : Reach) :
    scope.Invariant reach (BoundedVisit S D J) (BoundedEvents S D J) where
  done w _ := ⟨fun h => absurd h not_directIn_nil, fun f h => .inl h⟩
  asked _ _ first rest within := by
    obtain ⟨direct, found⟩ := first (within List.mem_cons_self)
    obtain ⟨direct', found'⟩ := rest fun mem => within (List.mem_cons_of_mem _ mem)
    constructor
    · intro a b h
      rcases directIn_cons_asked h with ⟨same, h⟩ | h
      · rw [same]
        exact direct h
      · exact direct' h
    · intro f hf
      rcases found' f hf with before | allowed | reported
      · exact (found f before).imp_right .inl
      · exact .inr (.inl allowed)
      · exact .inr (.inr (List.mem_cons_of_mem _ reported))
  reported _ rest within := by
    obtain ⟨direct, found⟩ := rest fun mem => within (List.mem_cons_of_mem _ mem)
    refine ⟨fun h => direct (directIn_cons_reported h), ?_⟩
    intro f hf
    rcases found f hf with before | allowed | reported
    -- the one finding that the report has added is the reported change
    · rcases List.mem_append.mp before with before | same
      · exact .inl before
      · cases List.mem_singleton.mp same
        exact .inr (.inr List.mem_cons_self)
    · exact .inr (.inl allowed)
    · exact .inr (.inr (List.mem_cons_of_mem _ reported))
  again _ _ := ⟨nofun, fun f h => .inl h⟩
  fresh {w a b es d w'} _ look _ events within := by
    have parts {c e f} (mem : Event.asked c e f ∈ es) : S (c, e) :=
      bounds.parts within (look.opens mem)
    obtain ⟨direct, found⟩ := events parts
    refine ⟨bounds.answer within look direct, ?_⟩
    intro f hf
    rcases found f hf with before | allowed | reported
    · exact .inl before
    · exact .inr allowed
    · exact .inr (bounds.reported within look direct reported)

/-- The comparison of two declarations keeps to the bounds. -/
structure Within (S D : String × String → Prop) (J : Change → Prop) (e : Entry) : Prop where
  asked : ∀ {es a b d}, e.Run es → .asked a b d ∈ es → S (a, b)
  reported : ∀ {es ch}, e.Run es → (∀ {a b}, DirectIn es a b → D (a, b)) →
    .reported ch ∈ es → J ch

theorem Bounds.of_tour (bounds : scope.Bounds S D J) {reach : Reach} {w w' : Walk}
    {entries : List Entry} (tour : scope.Tour reach w entries w')
    (within : ∀ e ∈ entries, Within S D J e) (start : ∀ f ∈ w.findings, J f.change) :
    ∀ f ∈ w'.findings, J f.change := by
  refine tour.keeps (P := fun w => ∀ f ∈ w.findings, J f.change) ?_ start
  intro w w₁ names e es mem trace run before f hf
  obtain ⟨events, -⟩ := (bounds.invariant reach).of_trace trace
  obtain ⟨direct, found⟩ := events ((within e mem).asked run)
  rcases found f hf with old | allowed | reported
  · exact before f old
  · exact allowed
  · exact (within e mem).reported run direct reported

/-- A whole walk keeps to the bounds when the comparison of each declaration does. -/
theorem Bounds.of_walk (bounds : scope.Bounds S D J)
    (exported : ∀ e ∈ scope.exports, Within S D J e)
    (declared : ∀ e ∈ scope.userTypes, Within S D J e) :
    ∀ f ∈ (scope.walk.run .start).2.findings, J f.change := by
  obtain ⟨w, first, rest⟩ := scope.walk_tour
  refine bounds.of_tour rest ?_ (bounds.of_tour first exported ?_)
  · intro e mem
    split at mem
    · exact declared e mem
    · exact absurd mem List.not_mem_nil
  · exact fun f h => absurd h List.not_mem_nil

end Scope

end AbiCompat
