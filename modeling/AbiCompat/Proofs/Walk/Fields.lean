/-
# What the comparison of two field lists does

The docket keeps the answer for each pair of fields, so that the lists are sorted by one function
from pairs to answers, however often a pair comes up.  `FieldsRun` says what the comparison finds
in terms of that function, and all later modules know field lists by it:

    removed, added, changed   filters on the fields, by the answers for the pairs they stand in
    difference                direct if something changed or was removed, and what it is otherwise
    asked, judged             the pairs that are asked for are those that are to be judged
    inTurn                    namesakes are asked for in turn, after all other pairs

## How

The comparison is three passes: over the fields that are gone, over those that are new, and over
those that both versions have by name.  Each pass is a `SortRun`: it goes through a list, judges a
pair for each item, and keeps the item or not.  A judgement looks the pair up in the docket first.

What carries the proof is that dockets only grow.  Entries stay, so the answers that hold in the
end are the answers that were given (`Grows.lookup`), and an entry of the end was either there or
asked for (`Grows.asked`).

The same two fields can come up in two passes, as what is gone and as what is new.  They are asked
for once, and it is the docket that says so; hence the third pass has its pairs to itself
(`Docket.Lacks`).
-/
import AbiCompat.Proofs.Walk.Clauses

namespace AbiCompat

/-- Whether two fields are not interchangeable, given how their types differ. -/
def Field.differs (p q : Field) (d : Difference) : Bool :=
  p.offset != q.offset || p.access.downgradedTo q.access || d.isDirect

/-- The answers for the types of pairs of fields. -/
abbrev Answers := Located → Located → Difference

/-- Whether a pair is not interchangeable by these answers. -/
def Answers.differs (v : Answers) (pq : Located × Located) : Bool :=
  pq.1.1.differs pq.2.1 (v pq.1 pq.2)

/-- The pair is judged before namesakes of this name are: those that no name holds together come
first, and the others in the order of their names. -/
def JudgedBefore (olds news : List Field) (name : String) (p q : Located) : Prop :=
  ∃ use, Judged olds news use p q ∧
    ((p, q) ∈ (namedFields olds).common (namedFields news) → p.name < name)

/-- The comparison of the types of two fields, and its answer. -/
def askedFor (v : Answers) (pq : Located × Located) : Event :=
  .asked pq.1.1.typeId pq.2.1.typeId (v pq.1 pq.2)

/-- Namesakes are asked for in turn: before them what is judged before, and nothing else. -/
def NamesakesInTurn (olds news : List Field) (v : Answers) (es : List Event) : Prop :=
  ∀ p q, (p, q) ∈ (namedFields olds).common (namedFields news) → ∃ before after,
    es = before ++ askedFor v (p, q) :: after
      ∧ (∀ a b d, .asked a b d ∈ before →
        ∃ x y, JudgedBefore olds news p.name x y ∧ a = x.1.typeId ∧ b = y.1.typeId)
      ∧ ∀ x y, JudgedBefore olds news p.name x y → askedFor v (x, y) ∈ before

/-- What two field lists are found to be, with `v` the answers for the types of the pairs
that are judged. -/
structure FieldsRun (olds news : List Field) (v : Answers) (es : List Event)
    (r : FieldsResult) : Prop where
  asked : ∀ {a b d}, .asked a b d ∈ es → ∃ use p q, Judged olds news use p q ∧
    a = p.1.typeId ∧ b = q.1.typeId ∧ d = v p q
  judged : ∀ {use p q}, Judged olds news use p q → .asked p.1.typeId q.1.typeId (v p q) ∈ es
  quiet : ∀ {c}, .reported c ∉ es
  removed : r.removed = ((oneSided olds news).filter
    fun p => (firstAt? news p.1.offset).all fun q => v.differs (p, q)).map (·.1)
  added : r.added = ((oneSided news olds).filter
    fun q => (firstAt? olds q.1.offset).all fun p => v.differs (p, q)).map (·.1)
  changed : r.changed = (((namedFields olds).common (namedFields news)).filter v.differs).map
    fun pq => (pq.1.1, pq.2.1)
  isDirect : r.difference.isDirect = true ↔ r.changed ≠ [] ∨ r.removed ≠ []
  isAny : r.difference.isAny = true ↔ (r.changed ≠ [] ∨ r.removed ≠ []) ∨
    ∃ use p q, Judged olds news use p q ∧ v.differs (p, q) = false ∧ (v p q).isAny
  inTurn : NamesakesInTurn olds news v es

/-! ## The docket

Entries stay.  What was asked for is entered, and what is entered was there or was asked for. -/

namespace Docket

/-- Every entry about two fields of the lists is the judgement on them. -/
def Sound (olds news : List Field) (k : Docket) : Prop :=
  ∀ p ∈ located olds, ∀ q ∈ located news, ∀ j, k.lookup (p.2, q.2) = some j →
    j.differs = p.1.differs q.1 j.difference

/-- The answers are those of the entries. -/
def Agrees (k : Docket) (v : Answers) : Prop :=
  ∀ p q j, k.lookup (p.2, q.2) = some j → v p q = j.difference

/-- The answers that the entries give. -/
def answers (k : Docket) : Answers := fun p q =>
  match k.lookup (p.2, q.2) with
  | some j => j.difference
  | none => .same

theorem agrees_answers (k : Docket) : k.Agrees k.answers := by
  intro p q j h
  simp only [answers, h]

/-- Every pair that is judged has an entry. -/
def Settles (olds news : List Field) (k : Docket) : Prop :=
  ∀ use p q, Judged olds news use p q → ∃ j, k.lookup (p.2, q.2) = some j

/-- The second docket is the first one with an entry more for each comparison asked for,
each about a pair that is judged. -/
inductive Grows (olds news : List Field) : Docket → List Event → Docket → Prop
  | refl (k : Docket) : Grows olds news k [] k
  | step {use : Use} {k k' : Docket} {p q : Located} {d : Difference} {es : List Event} :
      Judged olds news use p q → k.lookup (p.2, q.2) = none →
      Grows olds news (((p.2, q.2), ⟨p.1.differs q.1 d, d⟩) :: k) es k' →
      Grows olds news k (.asked p.1.typeId q.1.typeId d :: es) k'

variable {olds news : List Field} {k k' k'' : Docket} {es es' : List Event}

theorem Grows.trans (h : Grows olds news k es k') (h' : Grows olds news k' es' k'') :
    Grows olds news k (es ++ es') k'' := by
  induction h with
  | refl => exact h'
  | step judged new _ ih => exact .step judged new (ih h')

theorem lookup_cons {i i' : Nat × Nat} {j : Judgement} :
    List.lookup i ((i', j) :: k) = if i = i' then some j else k.lookup i := by
  rw [List.lookup_cons]
  by_cases h : i = i'
  · simp [h]
  · have hne : (i == i') = false := beq_eq_false_iff_ne.mpr h
    simp [h, hne]

theorem Grows.lookup (h : Grows olds news k es k') {i : Nat × Nat} {j : Judgement}
    (found : k.lookup i = some j) : k'.lookup i = some j := by
  induction h with
  | refl => exact found
  | @step _ k k' p q d _ _ new _ ih =>
      apply ih
      rw [lookup_cons]
      split
      -- an entry is made only where there was none, so it cannot cover the one found
      · rename_i same
        rw [same, new] at found
        cases found
      · exact found

theorem Grows.agrees (h : Grows olds news k es k') {v : Answers} (agrees : k'.Agrees v) :
    k.Agrees v :=
  fun p q j found => agrees p q j (h.lookup found)

theorem Grows.sound (h : Grows olds news k es k') (sound : k.Sound olds news) :
    k'.Sound olds news := by
  induction h with
  | refl => exact sound
  | @step _ k k' p q d _ judged _ _ ih =>
      apply ih
      intro p' hp' q' hq' j found
      rw [lookup_cons] at found
      split at found
      · rename_i same
        obtain ⟨hp, hq⟩ := judged.mem_located
        cases found
        cases located_inj hp' hp (Prod.mk.inj same).1
        cases located_inj hq' hq (Prod.mk.inj same).2
        rfl
      · exact sound p' hp' q' hq' j found

theorem Grows.quiet (h : Grows olds news k es k') {c : Change} : .reported c ∉ es := by
  induction h with
  | refl => exact List.not_mem_nil
  | step _ _ _ ih =>
      intro mem
      rcases List.mem_cons.mp mem with mem | mem
      · cases mem
      · exact ih mem

theorem Grows.entered (h : Grows olds news k es k') {a b : String} {d : Difference}
    (mem : .asked a b d ∈ es) : ∃ use p q, Judged olds news use p q ∧ a = p.1.typeId ∧
      b = q.1.typeId ∧ k'.lookup (p.2, q.2) = some ⟨p.1.differs q.1 d, d⟩ := by
  induction h with
  | refl => exact absurd mem List.not_mem_nil
  | @step use k k' p q e es judged new rest ih =>
      rcases List.mem_cons.mp mem with mem | mem
      · cases mem
        refine ⟨use, p, q, judged, rfl, rfl, rest.lookup ?_⟩
        rw [lookup_cons, if_pos rfl]
      · exact ih mem

/-- What is entered was there or was asked for. -/
theorem Grows.asked (h : Grows olds news k es k') {i : Nat × Nat} {j : Judgement}
    (found : k'.lookup i = some j) : k.lookup i = some j ∨
      ∃ use p q, Judged olds news use p q ∧ i = (p.2, q.2) ∧
        .asked p.1.typeId q.1.typeId j.difference ∈ es := by
  induction h with
  | refl => exact .inl found
  | @step use k k' p q e es judged new _ ih =>
      rcases ih found with there | ⟨use', p', q', judged', same, mem⟩
      · rw [lookup_cons] at there
        split at there
        · rename_i same
          cases there
          exact .inr ⟨use, p, q, judged, same, List.mem_cons_self⟩
        · exact .inl there
      · exact .inr ⟨use', p', q', judged', same, List.mem_cons_of_mem _ mem⟩

theorem Grows.asked_of_entered (h : Grows olds news [] es k) {use : Use} {p q : Located}
    (judged : Judged olds news use p q) {j : Judgement} (found : k.lookup (p.2, q.2) = some j) :
    .asked p.1.typeId q.1.typeId j.difference ∈ es := by
  rcases h.asked found with there | ⟨use', p', q', judged', same, mem⟩
  · cases there
  · obtain ⟨hp, hq⟩ := judged.mem_located
    obtain ⟨hp', hq'⟩ := judged'.mem_located
    cases located_inj hp hp' (Prod.mk.inj same).1
    cases located_inj hq hq' (Prod.mk.inj same).2
    exact mem

end Docket

/-! ## Sorting by the judgements -/

section Sorting

variable {olds news : List Field} {visit : Visit} {reach : Reach}

/-- The judgement on a pair: it is in the docket afterwards, and nothing else is that was not. -/
structure JudgeRun (olds news : List Field) (p q : Located) (k : Docket) (es : List Event)
    (j : Judgement) (k' : Docket) : Prop where
  grows : Docket.Grows olds news k es k'
  found : k'.lookup (p.2, q.2) = some j
  rule : j.differs = p.1.differs q.1 j.difference
  entered : ∀ i, k'.lookup i ≠ none → k.lookup i ≠ none ∨ i = (p.2, q.2)
  asks : k.lookup (p.2, q.2) = none → es = [.asked p.1.typeId q.1.typeId j.difference]

/-- One pass over a list: the items that no pair stands for, or whose pair is not
interchangeable, are kept, and the differences of the others are combined. -/
structure SortRun (olds news : List Field) {β : Type} (pairOf : β → Option (Located × Located))
    (items : List β) (k : Docket) (es : List Event) (kept : List β) (d : Difference)
    (k' : Docket) : Prop where
  grows : Docket.Grows olds news k es k'
  settled : ∀ x ∈ items, ∀ pq, pairOf x = some pq → ∃ j, k'.lookup (pq.1.2, pq.2.2) = some j
  entered : ∀ i, k'.lookup i ≠ none → k.lookup i ≠ none
    ∨ ∃ x ∈ items, ∃ pq, pairOf x = some pq ∧ i = (pq.1.2, pq.2.2)
  kept : ∀ v, k'.Agrees v → kept = items.filter fun x => (pairOf x).all v.differs
  direct : d.isDirect = false
  isAny : ∀ v, k'.Agrees v → (d.isAny = true ↔
    ∃ x ∈ items, ∃ pq, pairOf x = some pq ∧ v.differs pq = false ∧ (v pq.1 pq.2).isAny)

namespace SortRun

variable {β : Type} {pairOf : β → Option (Located × Located)} {x : β} {items kept : List β}
  {k k₁ k' : Docket} {es es₁ : List Event} {d : Difference}

theorem nil (k : Docket) : SortRun olds news pairOf [] k [] [] .same k where
  grows := .refl k
  settled x h := absurd h List.not_mem_nil
  entered i h := .inl h
  kept v _ := rfl
  direct := rfl
  isAny v _ := by simp [Difference.isAny]

theorem cons_none (h : pairOf x = none) (run : SortRun olds news pairOf items k es kept d k') :
    SortRun olds news pairOf (x :: items) k es (x :: kept) d k' where
  grows := run.grows
  settled y hy pq hpq := by
    rcases List.mem_cons.mp hy with rfl | hy
    · rw [h] at hpq
      cases hpq
    · exact run.settled y hy pq hpq
  entered i h := (run.entered i h).imp_right fun ⟨y, hy, rest⟩ =>
    ⟨y, List.mem_cons_of_mem _ hy, rest⟩
  kept v agrees := by
    rw [List.filter_cons_of_pos (by simp [h]), ← run.kept v agrees]
  direct := run.direct
  isAny v agrees := by
    simp only [List.mem_cons, exists_eq_or_imp]
    rw [← run.isAny v agrees]
    simp [h]

theorem cons_some {pq : Located × Located} {j : Judgement} (h : pairOf x = some pq)
    (first : JudgeRun olds news pq.1 pq.2 k es₁ j k₁)
    (run : SortRun olds news pairOf items k₁ es kept d k') :
    SortRun olds news pairOf (x :: items) k (es₁ ++ es) (if j.differs then x :: kept else kept)
      (if j.differs then d else j.difference.combine d) k' where
  grows := first.grows.trans run.grows
  settled y hy rs hrs := by
    rcases List.mem_cons.mp hy with rfl | hy
    · rw [h] at hrs
      cases hrs
      exact ⟨j, run.grows.lookup first.found⟩
    · exact run.settled y hy rs hrs
  entered i hi := by
    rcases run.entered i hi with there | ⟨y, hy, rs, hrs, same⟩
    · refine (first.entered i there).imp_right fun same => ?_
      exact ⟨x, List.mem_cons_self, pq, h, same⟩
    · exact .inr ⟨y, List.mem_cons_of_mem _ hy, rs, hrs, same⟩
  kept v agrees := by
    have hv : v pq.1 pq.2 = j.difference := agrees _ _ _ (run.grows.lookup first.found)
    have same : v.differs pq = j.differs := by rw [Answers.differs, hv, first.rule]
    rw [List.filter_cons, h, Option.all_some, same, ← run.kept v agrees]
  direct := by
    split
    · exact run.direct
    · rename_i hj
      rw [first.rule, Field.differs, Bool.not_eq_true, Bool.or_eq_false_iff] at hj
      rw [Difference.isDirect_combine, hj.2, run.direct]
      rfl
  isAny v agrees := by
    have hv : v pq.1 pq.2 = j.difference := agrees _ _ _ (run.grows.lookup first.found)
    have same : v.differs pq = j.differs := by rw [Answers.differs, hv, first.rule]
    have here : (∃ rs, pairOf x = some rs ∧ v.differs rs = false ∧ (v rs.1 rs.2).isAny = true)
        ↔ j.differs = false ∧ j.difference.isAny = true := by
      simp [h, same, hv]
    simp only [List.mem_cons, exists_eq_or_imp]
    rw [← run.isAny v agrees, here]
    cases hj : j.differs with
    | true => simp
    | false => simp [Difference.isAny_combine]

end SortRun

theorem judge_run_of_some {p q : Located} {k : Docket} {j : Judgement}
    (h : k.lookup (p.2, q.2) = some j) : (judge visit p q).run k = pure (j, k) := by
  simp only [judge, StateT.run_bind, StateT.run_get, pure_bind, h]
  rfl

theorem judge_run_of_none {p q : Located} {k : Docket} (h : k.lookup (p.2, q.2) = none) :
    (judge visit p q).run k = (do
      let d ← visit p.1.typeId q.1.typeId
      let j : Judgement := ⟨p.1.differs q.1 d, d⟩
      return (j, ((p.2, q.2), j) :: k)) := by
  simp only [judge, StateT.run_bind, StateT.run_get, pure_bind, h]
  rfl

theorem judge_does {use : Use} {p q : Located} (judged : Judged olds news use p q) (k : Docket)
    (sound : k.Sound olds news) : Does visit reach ((judge visit p q).run k)
      (fun es x => JudgeRun olds news p q k es x.1 x.2) := by
  cases h : k.lookup (p.2, q.2) with
  | some j =>
      obtain ⟨hp, hq⟩ := judged.mem_located
      rw [judge_run_of_some h]
      refine Does.pure ⟨.refl k, h, sound p hp q hq j h, fun i there => .inl there, fun none => ?_⟩
      rw [h] at none
      cases none
  | none =>
      rw [judge_run_of_none h]
      refine Does.bind Does.ask ?_
      rintro _ d rfl
      refine Does.pure ⟨.step judged h (.refl _), ?_, rfl, fun i there => ?_, fun _ => rfl⟩
      · exact Docket.lookup_cons.trans (if_pos rfl)
      · by_cases same : i = (p.2, q.2)
        · exact .inr same
        · rw [Docket.lookup_cons, if_neg same] at there
          exact .inl there

theorem reconcile_run_none {judgeAt : Located → Option (Judging Judgement)} {p : Located}
    (items : List Located) (k : Docket) (h : judgeAt p = none) :
    (reconcile judgeAt (p :: items)).run k = (do
      let (x, k') ← (reconcile judgeAt items).run k
      return ((p :: x.1, x.2), k')) := by
  simp only [reconcile, h]
  rfl

theorem reconcile_run_some {judgeAt : Located → Option (Judging Judgement)} {p : Located}
    {judged : Judging Judgement} (items : List Located) (k : Docket) (h : judgeAt p = some judged) :
    (reconcile judgeAt (p :: items)).run k = (do
      let (j, k₁) ← judged.run k
      let (x, k') ← (reconcile judgeAt items).run k₁
      return (if j.differs then (p :: x.1, x.2) else (x.1, j.difference.combine x.2), k')) := by
  simp only [reconcile, h]
  rfl

theorem compareNamed_run {p q : Located} (items : List (Located × Located)) (k : Docket) :
    (compareNamed visit ((p, q) :: items)).run k = (do
      let (j, k₁) ← (judge visit p q).run k
      let (x, k') ← (compareNamed visit items).run k₁
      return (if j.differs then ((p.1, q.1) :: x.1, x.2)
        else (x.1, j.difference.combine x.2), k')) :=
  rfl

/-- One-sided fields are sorted by the judgements on the pairs that `turn` makes of them and
of what stands at their offset. -/
theorem reconcile_does (at? : Located → Option Located)
    (turn : Located → Located → Located × Located) :
    ∀ (items : List Located), (∀ p ∈ items, ∀ q, at? p = some q →
        ∃ use, Judged olds news use (turn p q).1 (turn p q).2) →
      ∀ k : Docket, k.Sound olds news → Does visit reach
        ((reconcile (fun p => (at? p).map fun q => judge visit (turn p q).1 (turn p q).2)
          items).run k)
        (fun es x => SortRun olds news (fun p => (at? p).map (turn p)) items k es x.1.1 x.1.2 x.2)
  | [], _, k, _ => Does.pure (SortRun.nil k)
  | p :: items, judged, k, sound => by
      have judged' := fun p hp => judged p (List.mem_cons_of_mem _ hp)
      cases h : at? p with
      | none =>
          rw [reconcile_run_none items k (by rw [h]; rfl)]
          refine Does.bind (reconcile_does at? turn items judged' k sound) ?_
          intro es x run
          refine Does.pure ?_
          rw [List.append_nil]
          exact run.cons_none (by rw [h]; rfl)
      | some q =>
          obtain ⟨use, hj⟩ := judged p List.mem_cons_self q h
          rw [reconcile_run_some items k (by rw [h]; rfl)]
          refine Does.bind (judge_does hj k sound) ?_
          intro es₁ x₁ first
          refine Does.bind
            (reconcile_does at? turn items judged' x₁.2 (first.grows.sound sound)) ?_
          intro es x run
          refine Does.pure ?_
          rw [List.append_nil]
          have all := run.cons_some (by rw [h]; rfl) first
          split <;> simp_all

/-- The docket has no entry for any of the pairs, and no two of them would share one. -/
structure Docket.Lacks (k : Docket) (items : List (Located × Located)) : Prop where
  unjudged : ∀ pq ∈ items, k.lookup (pq.1.2, pq.2.2) = none
  apart : items.Pairwise fun pq rs => (pq.1.2, pq.2.2) ≠ (rs.1.2, rs.2.2)

theorem Docket.Lacks.cons {pq : Located × Located} {items : List (Located × Located)}
    {k k' : Docket} {es : List Event} {j : Judgement} (lacks : k.Lacks (pq :: items))
    (run : JudgeRun olds news pq.1 pq.2 k es j k') :
    k.lookup (pq.1.2, pq.2.2) = none ∧ k'.Lacks items := by
  obtain ⟨apart, rest⟩ := List.pairwise_cons.mp lacks.apart
  refine ⟨lacks.unjudged pq List.mem_cons_self, ?_, rest⟩
  intro rs mem
  cases found : k'.lookup (rs.1.2, rs.2.2) with
  | none => rfl
  | some j =>
      rcases run.entered _ (found ▸ Option.some_ne_none j) with before | same
      · exact absurd (lacks.unjudged rs (List.mem_cons_of_mem _ mem)) before
      · exact absurd same.symm (apart rs mem)

/-- Namesakes are sorted by the judgements on them, and asked for one after the other. -/
theorem compareNamed_does :
    ∀ (items : List (Located × Located)), (∀ pq ∈ items, ∃ use, Judged olds news use pq.1 pq.2) →
      ∀ k : Docket, k.Sound olds news → Does visit reach ((compareNamed visit items).run k)
        (fun es x => (∃ kept, x.1.1 = kept.map (fun pq => (pq.1.1, pq.2.1))
          ∧ SortRun olds news some items k es kept x.1.2 x.2)
          ∧ (k.Lacks items → ∀ v, x.2.Agrees v → es = items.map (askedFor v)))
  | [], _, k, _ => Does.pure ⟨⟨[], rfl, SortRun.nil k⟩, fun _ _ _ => rfl⟩
  | (p, q) :: items, judged, k, sound => by
      obtain ⟨use, hj⟩ := judged (p, q) List.mem_cons_self
      rw [compareNamed_run]
      refine Does.bind (judge_does hj k sound) ?_
      intro es₁ x₁ first
      refine Does.bind (compareNamed_does items
        (fun pq h => judged pq (List.mem_cons_of_mem _ h)) x₁.2 (first.grows.sound sound)) ?_
      rintro es x ⟨⟨kept, hkept, run⟩, inTurn⟩
      refine Does.pure ⟨⟨if x₁.1.differs then (p, q) :: kept else kept, ?_, ?_⟩, ?_⟩
      · dsimp only
        split <;> simp [hkept]
      · rw [List.append_nil]
        have all := run.cons_some (x := (p, q)) rfl first
        split <;> simp_all
      · intro lacks v agrees
        obtain ⟨unjudged, lacks⟩ := lacks.cons first
        have answer : v p q = x₁.1.difference := agrees p q _ (run.grows.lookup first.found)
        rw [List.append_nil, first.asks unjudged, inTurn lacks v agrees, List.map_cons, askedFor,
          answer]
        rfl

/-- The pair of a field that is gone and what stands at its offset. -/
def gonePair (news : List Field) (p : Located) : Option (Located × Located) :=
  (firstAt? news p.1.offset).map fun q => (p, q)

/-- The pair of a field that is new and what stood at its offset. -/
def newPair (olds : List Field) (q : Located) : Option (Located × Located) :=
  (firstAt? olds q.1.offset).map fun p => (p, q)

/-- The three passes judge what is to be judged, and nothing else. -/
theorem judged_iff {use : Use} {p q : Located} : Judged olds news use p q ↔
    use = .reported ∧ (∃ x ∈ oneSided olds news, gonePair news x = some (p, q))
    ∨ use = .dropped ∧ (∃ x ∈ oneSided news olds, newPair olds x = some (p, q))
    ∨ use = .reported ∧ (p, q) ∈ (namedFields olds).common (namedFields news) := by
  constructor
  · intro h
    cases h with
    | gone hp hq => exact .inl ⟨rfl, p, hp, by rw [gonePair, hq]; rfl⟩
    | new hq hp => exact .inr (.inl ⟨rfl, q, hq, by rw [newPair, hp]; rfl⟩)
    | namesakes h => exact .inr (.inr ⟨rfl, h⟩)
  · rintro (⟨rfl, x, hx, h⟩ | ⟨rfl, x, hx, h⟩ | ⟨rfl, h⟩)
    · obtain ⟨y, hy, same⟩ := Option.map_eq_some_iff.mp h
      cases same
      exact .gone hx hy
    · obtain ⟨y, hy, same⟩ := Option.map_eq_some_iff.mp h
      cases same
      exact .new hx hy
    · exact .namesakes h

/-- The difference of two field lists, given the differences inside and what is kept. -/
def fieldsDifference (changed : List (Field × Field)) (gone : List Located) (inside : Difference) :
    Difference :=
  if changed.isEmpty && gone.isEmpty then inside else inside.combine .direct

theorem isDirect_fieldsDifference {changed : List (Field × Field)} {gone : List Located}
    {inside : Difference} (h : inside.isDirect = false) :
    (fieldsDifference changed gone inside).isDirect = true
      ↔ changed ≠ [] ∨ gone.map (·.1) ≠ [] := by
  cases changed <;> cases gone <;> simp [fieldsDifference, h]

theorem isAny_fieldsDifference {changed : List (Field × Field)} {gone : List Located}
    {inside : Difference} :
    (fieldsDifference changed gone inside).isAny = true
      ↔ (changed ≠ [] ∨ gone.map (·.1) ≠ []) ∨ inside.isAny = true := by
  cases changed <;> cases gone <;> simp [fieldsDifference]

section Passes

variable {es₁ es₂ es₃ : List Event} {gone new : List Located} {changed : List (Located × Located)}
  {d e f : Difference} {k₁ k₂ k₃ : Docket}
  (first : SortRun olds news (gonePair news) (oneSided olds news) [] es₁ gone d k₁)
  (second : SortRun olds news (newPair olds) (oneSided news olds) k₁ es₂ new e k₂)
  (third : SortRun olds news some ((namedFields olds).common (namedFields news)) k₂ es₃ changed f
    k₃)
include first second third

theorem passes_settled : k₃.Settles olds news := by
  intro use p q judged
  rcases judged_iff.mp judged with ⟨-, x, hx, h⟩ | ⟨-, x, hx, h⟩ | ⟨-, h⟩
  · obtain ⟨j, hj⟩ := first.settled x hx _ h
    exact ⟨j, third.grows.lookup (second.grows.lookup hj)⟩
  · obtain ⟨j, hj⟩ := second.settled x hx _ h
    exact ⟨j, third.grows.lookup hj⟩
  · exact third.settled (p, q) h _ rfl

theorem passes_isAny {v : Answers} (agrees : k₃.Agrees v) :
    ((d.combine e).combine f).isAny = true ↔
      ∃ use p q, Judged olds news use p q ∧ v.differs (p, q) = false ∧ (v p q).isAny := by
  have agrees₂ := third.grows.agrees agrees
  rw [Difference.isAny_combine, Difference.isAny_combine, Bool.or_eq_true, Bool.or_eq_true,
    first.isAny v (second.grows.agrees agrees₂), second.isAny v agrees₂, third.isAny v agrees]
  constructor
  · rintro ((⟨x, hx, ⟨p, q⟩, h, rest⟩ | ⟨x, hx, ⟨p, q⟩, h, rest⟩) | ⟨x, hx, ⟨p, q⟩, h, rest⟩)
    · exact ⟨_, p, q, judged_iff.mpr (.inl ⟨rfl, x, hx, h⟩), rest⟩
    · exact ⟨_, p, q, judged_iff.mpr (.inr (.inl ⟨rfl, x, hx, h⟩)), rest⟩
    · cases h
      exact ⟨_, p, q, judged_iff.mpr (.inr (.inr ⟨rfl, hx⟩)), rest⟩
  · rintro ⟨use, p, q, judged, rest⟩
    rcases judged_iff.mp judged with ⟨-, x, hx, h⟩ | ⟨-, x, hx, h⟩ | ⟨-, h⟩
    · exact .inl (.inl ⟨x, hx, _, h, rest⟩)
    · exact .inl (.inr ⟨x, hx, _, h, rest⟩)
    · exact .inr ⟨_, h, _, rfl, rest⟩

omit third in
theorem passes_lack : k₂.Lacks ((namedFields olds).common (namedFields news)) := by
  have unjudged {p q : Located} (common : (p, q) ∈ (namedFields olds).common (namedFields news)) :
      k₂.lookup (p.2, q.2) = none := by
    obtain ⟨hp, hq⟩ := (Judged.namesakes common).mem_located
    have name : q.name = p.name := Catalog.key_eq_of_mem_common common
    have named : p.1.name ≠ "" := name_ne_of_mem_namedFields (Catalog.mem_common.mp common).1
    cases found : k₂.lookup (p.2, q.2) with
    | none => rfl
    | some j =>
        rcases second.entered _ (found ▸ Option.some_ne_none j) with before | ⟨x, hx, rs, hrs, same⟩
        · rcases first.entered _ before with none | ⟨x, hx, rs, hrs, same⟩
          · exact absurd rfl none
          · obtain ⟨y, -, rfl⟩ := Option.map_eq_some_iff.mp hrs
            cases located_inj hp (mem_of_mem_oneSided hx) (Prod.mk.inj same).1
            rcases (mem_oneSided.mp hx).2 with unnamed | gone
            · exact absurd unnamed named
            · exact absurd name (gone q.1 (mem_of_mem_located hq))
        · obtain ⟨y, -, rfl⟩ := Option.map_eq_some_iff.mp hrs
          cases located_inj hq (mem_of_mem_oneSided hx) (Prod.mk.inj same).2
          rcases (mem_oneSided.mp hx).2 with unnamed | gone
          · exact absurd (name.symm.trans unnamed) named
          · exact absurd name.symm (gone p.1 (mem_of_mem_located hp))
  refine ⟨fun pq mem => unjudged mem, ?_⟩
  refine (Catalog.ascending_common _ _).imp_of_mem ?_
  rintro ⟨p, q⟩ ⟨p', q'⟩ mem mem' before same
  cases located_inj (Judged.namesakes mem).mem_located.1 (Judged.namesakes mem').mem_located.1
    (Prod.mk.inj same).1
  exact String.lt_irrefl _ before

theorem passes_inTurn {v : Answers} (agrees : k₃.Agrees v)
    (named : es₃ = ((namedFields olds).common (namedFields news)).map (askedFor v)) :
    NamesakesInTurn olds news v (es₁ ++ (es₂ ++ es₃)) := by
  intro p q common
  have lacks := passes_lack first second
  have agrees₂ := third.grows.agrees agrees
  have grows := first.grows.trans second.grows
  obtain ⟨pre, post, split⟩ := List.append_of_mem common
  have ascending := Catalog.ascending_common (namedFields olds) (namedFields news)
  rw [split, List.pairwise_append, List.pairwise_cons] at ascending
  obtain ⟨-, ⟨later, -⟩, earlier⟩ := ascending
  refine ⟨(es₁ ++ es₂) ++ pre.map (askedFor v), post.map (askedFor v), ?_, ?_, ?_⟩
  · rw [named, split, List.map_append, List.map_cons]
    simp only [List.append_assoc]
  · intro a b d mem
    rcases List.mem_append.mp mem with mem | mem
    · obtain ⟨use, x, y, judged, ha, hb, found⟩ := grows.entered mem
      refine ⟨x, y, ⟨use, judged, fun namesakes => ?_⟩, ha, hb⟩
      rw [lacks.unjudged _ namesakes] at found
      cases found
    · obtain ⟨⟨x, y⟩, listed, same⟩ := List.mem_map.mp mem
      cases same
      have namesakes : (x, y) ∈ (namedFields olds).common (namedFields news) := by
        rw [split]
        exact List.mem_append_left _ listed
      have before : x.name < p.name := earlier (x, y) listed (p, q) List.mem_cons_self
      exact ⟨x, y, ⟨_, .namesakes namesakes, fun _ => before⟩, rfl, rfl⟩
  · rintro x y ⟨use, judged, before⟩
    rcases judged_iff.mp judged with ⟨-, z, hz, h⟩ | ⟨-, z, hz, h⟩ | ⟨-, namesakes⟩
    · obtain ⟨j, found⟩ := first.settled z hz _ h
      rw [askedFor, agrees₂ x y j (second.grows.lookup found)]
      exact List.mem_append_left _ (grows.asked_of_entered judged (second.grows.lookup found))
    · obtain ⟨j, found⟩ := second.settled z hz _ h
      rw [askedFor, agrees₂ x y j found]
      exact List.mem_append_left _ (grows.asked_of_entered judged found)
    · have lt := before namesakes
      rw [split] at namesakes
      rcases List.mem_append.mp namesakes with mem | mem
      · exact List.mem_append_right _ (List.mem_map_of_mem mem)
      · rcases List.mem_cons.mp mem with same | mem
        · cases same
          exact absurd lt (String.lt_irrefl _)
        · exact absurd (String.lt_trans lt (later _ mem)) (String.lt_irrefl _)

/-- Puts the three passes together. -/
theorem FieldsRun.of_passes {r : FieldsResult}
    (named : ∀ v, k₃.Agrees v →
      es₃ = ((namedFields olds).common (namedFields news)).map (askedFor v))
    (hr : r = ⟨fieldsDifference (changed.map fun pq => (pq.1.1, pq.2.1)) gone
        ((d.combine e).combine f),
      changed.map fun pq => (pq.1.1, pq.2.1), gone.map (·.1), new.map (·.1)⟩) :
    FieldsRun olds news k₃.answers (es₁ ++ (es₂ ++ es₃)) r := by
  have grows := first.grows.trans (second.grows.trans third.grows)
  have agrees₃ := k₃.agrees_answers
  have agrees₂ := third.grows.agrees agrees₃
  have agrees₁ := second.grows.agrees agrees₂
  subst hr
  refine ⟨?_, ?_, grows.quiet, ?_, ?_, ?_, ?_, ?_,
    passes_inTurn first second third agrees₃ (named _ agrees₃)⟩
  · intro a b g mem
    obtain ⟨use, p, q, judged, ha, hb, found⟩ := grows.entered mem
    exact ⟨use, p, q, judged, ha, hb, (agrees₃ p q _ found).symm⟩
  · intro use p q judged
    obtain ⟨j, found⟩ := passes_settled first second third use p q judged
    rw [agrees₃ p q j found]
    exact grows.asked_of_entered judged found
  · rw [first.kept _ agrees₁]
    simp only [gonePair, Option.all_map]
  · rw [second.kept _ agrees₂]
    simp only [newPair, Option.all_map]
  · rw [third.kept _ agrees₃]
    simp only [Option.all_some]
  · refine isDirect_fieldsDifference ?_
    rw [Difference.isDirect_combine, Difference.isDirect_combine, first.direct, second.direct,
      third.direct]
    rfl
  · refine isAny_fieldsDifference.trans ?_
    rw [passes_isAny first second third agrees₃]

end Passes

theorem judgeFields_run (olds news : List Field) (k : Docket) :
    (judgeFields visit olds news).run k = (do
      let (x, k₁) ← (reconcile (fun p => (firstAt? news p.1.offset).map fun q => judge visit p q)
        (oneSided olds news)).run k
      let (y, k₂) ← (reconcile (fun q => (firstAt? olds q.1.offset).map fun p => judge visit p q)
        (oneSided news olds)).run k₁
      let (z, k₃) ← (compareNamed visit ((namedFields olds).common (namedFields news))).run k₂
      return (⟨fieldsDifference z.1 x.1 ((x.2.combine y.2).combine z.2), z.1, x.1.map (·.1),
        y.1.map (·.1)⟩, k₃)) :=
  rfl

/-- The lists are sorted by the answers in the docket, which has one for each pair. -/
theorem judgeFields_does (olds news : List Field) :
    Does visit reach ((judgeFields visit olds news).run [])
      (fun es x => FieldsRun olds news x.2.answers es x.1 ∧ x.2.Settles olds news) := by
  have empty : Docket.Sound olds news [] := fun p _ q _ j h => by cases h
  rw [judgeFields_run]
  refine Does.bind (reconcile_does (fun p => firstAt? news p.1.offset) (fun p q => (p, q)) _
    (fun p hp q hq => ⟨_, .gone hp hq⟩) [] empty) ?_
  intro es₁ x₁ first
  have sound₁ := first.grows.sound empty
  refine Does.bind (reconcile_does (fun q => firstAt? olds q.1.offset) (fun q p => (p, q)) _
    (fun q hq p hp => ⟨_, .new hq hp⟩) x₁.2 sound₁) ?_
  intro es₂ x₂ second
  refine Does.bind (compareNamed_does _ (fun pq h => ⟨_, .namesakes h⟩) x₂.2
    (second.grows.sound sound₁)) ?_
  rintro es₃ x₃ ⟨⟨kept, hkept, third⟩, named⟩
  refine Does.pure ⟨?_, passes_settled first second third⟩
  rw [List.append_nil]
  refine FieldsRun.of_passes first second third (named (passes_lack first second)) ?_
  rw [hkept]

theorem compareFields_does (olds news : List Field) :
    Does visit reach (compareFields visit olds news)
      (fun es r => ∃ v, FieldsRun olds news v es r) := by
  refine Does.bind (judgeFields_does olds news) ?_
  rintro es x ⟨run, -⟩
  refine Does.pure ⟨x.2.answers, ?_⟩
  rw [List.append_nil]
  exact run

end Sorting

end AbiCompat
