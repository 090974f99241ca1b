/-
# What the clauses for lists of parts do

Parameters and bases are compared up to the first pair that differs, template arguments all the
way.  Each `…Run` says which pairs are asked for and what the answers make of the lists, and each
`…_does` that the clause of the program does this.

`UpToRun` is for members of any kind: pairs of them are asked for by their ids, up to the first
pair that is not alike or whose ids differ directly.  Parameters and bases are two instances of it,
with "both or neither may be left out" and "equally accessible" for being alike.  `AsksInTurn` is
what it comes to for one member in the middle.

A signature is put together from a run over the parameters, the returned types, and a run over the
template arguments, of which the last has no say in the answer but for their number.
-/
import AbiCompat.Proofs.Walk.Parts
import AbiCompat.Proofs.Walk.Trace

namespace AbiCompat

section Lists

variable {visit : Visit} {reach : Reach}

theorem bind_ite_eq {α β : Type} {c : Prop} [Decidable c] {x y : Walking α}
    {next : α → Walking β} :
    (if c then x else y) >>= next = if c then x >>= next else y >>= next := by
  split <;> rfl

/-! ## Pairs of ids

All pairs are asked for, and there is a difference when one of them has one. -/

/-- All pairs are asked for, and there is a difference when one of them has one. -/
structure PairsRun (pairs : List (String × String)) (es : List Event) (d : Difference) :
    Prop where
  asked : ∀ {a b e}, .asked a b e ∈ es → (a, b) ∈ pairs
  quiet : ∀ {c}, .reported c ∉ es
  complete : ∀ {a b}, (a, b) ∈ pairs → ∃ e, .asked a b e ∈ es
  isAny : d.isAny ↔ ∃ a b e, .asked a b e ∈ es ∧ e.isAny

theorem PairsRun.nil : PairsRun [] [] .same where
  asked h := absurd h List.not_mem_nil
  quiet h := absurd h List.not_mem_nil
  complete h := absurd h List.not_mem_nil
  isAny := by simp [Difference.isAny]

theorem PairsRun.cons {a b : String} {pairs : List (String × String)} {es : List Event}
    {d e : Difference} (run : PairsRun pairs es e) :
    PairsRun ((a, b) :: pairs) (.asked a b d :: es) (d.combine e) where
  asked h := by
    rcases List.mem_cons.mp h with h | h
    · cases h
      exact List.mem_cons_self
    · exact List.mem_cons_of_mem _ (run.asked h)
  quiet h := by
    rcases List.mem_cons.mp h with h | h
    · cases h
    · exact run.quiet h
  complete h := by
    rcases List.mem_cons.mp h with h | h
    · cases h
      exact ⟨d, List.mem_cons_self⟩
    · obtain ⟨e, he⟩ := run.complete h
      exact ⟨e, List.mem_cons_of_mem _ he⟩
  isAny := by
    rw [Difference.isAny_combine, Bool.or_eq_true, run.isAny]
    constructor
    · rintro (h | ⟨x, y, z, hz, h⟩)
      · exact ⟨a, b, d, List.mem_cons_self, h⟩
      · exact ⟨x, y, z, List.mem_cons_of_mem _ hz, h⟩
    · rintro ⟨x, y, z, hz, h⟩
      rcases List.mem_cons.mp hz with hz | hz
      · cases hz
        exact .inl h
      · exact .inr ⟨x, y, z, hz, h⟩

theorem visitPairs_does :
    ∀ as bs, Does visit reach (visitPairs visit as bs) (PairsRun (as.zip bs))
  | a :: as, b :: bs => by
      refine Does.bind Does.ask ?_
      rintro _ d rfl
      refine Does.bind (visitPairs_does as bs) ?_
      intro es e run
      refine Does.pure ?_
      simpa using run.cons
  | [], _ => Does.pure (by simpa using PairsRun.nil)
  | _ :: _, [] => Does.pure (by simpa using PairsRun.nil)

/-! ## Members that are compared up to the first difference -/

/-- A pair of members is asked for by its ids if the pairs before it are alike and do not differ
directly. -/
def AsksInTurn {α : Type} (id : α → String) (alike : α → α → Prop) (pairs : List (α × α))
    (es : List Event) : Prop :=
  ∀ (i : Nat) (x y : α), pairs[i]? = some (x, y) →
    (∀ j < i, ∀ x' y', pairs[j]? = some (x', y') → alike x' y' ∧ ¬ DirectIn es (id x') (id y')) →
    ∃ e, .asked (id x) (id y) e ∈ es

theorem AsksInTurn.mono {α : Type} {id : α → String} {alike : α → α → Prop}
    {pairs : List (α × α)} {es es' : List Event} (h : AsksInTurn id alike pairs es)
    (sub : es ⊆ es') : AsksInTurn id alike pairs es' := by
  intro i x y here quiet
  obtain ⟨e, he⟩ := h i x y here fun j before x' y' there =>
    (quiet j before x' y' there).imp_right fun none direct => none (direct.mono sub)
  exact ⟨e, sub he⟩

/-- Pairs of members are asked for by their ids, up to the first pair that is not alike or
differs directly. -/
structure UpToRun {α : Type} (id : α → String) (alike : α → α → Prop) (pairs : List (α × α))
    (es : List Event) (agree : Bool) : Prop where
  asked : ∀ {a b e}, .asked a b e ∈ es → ∃ x y, (x, y) ∈ pairs ∧ id x = a ∧ id y = b
  quiet : ∀ {c}, .reported c ∉ es
  differ : agree = false →
    ∃ x y, (x, y) ∈ pairs ∧ (¬ alike x y ∨ DirectIn es (id x) (id y))
  agree : agree = true → (∀ a b, ¬ DirectIn es a b) ∧
    ∀ x y, (x, y) ∈ pairs → alike x y ∧ ∃ e, .asked (id x) (id y) e ∈ es
  inTurn : AsksInTurn id alike pairs es

namespace UpToRun

variable {α : Type} {id : α → String} {alike : α → α → Prop} {x y : α} {pairs : List (α × α)}
  {d : Difference}

theorem nil : UpToRun id alike [] [] true where
  asked h := absurd h List.not_mem_nil
  quiet h := absurd h List.not_mem_nil
  differ h := by cases h
  agree _ := ⟨fun _ _ => not_directIn_nil, fun _ _ h => absurd h List.not_mem_nil⟩
  inTurn i x y here := by
    rw [List.getElem?_nil] at here
    cases here

theorem stop (h : d.isDirect = true ∨ ¬ alike x y) :
    UpToRun id alike ((x, y) :: pairs) [.asked (id x) (id y) d] false where
  asked h := by
    cases List.mem_singleton.mp h
    exact ⟨x, y, List.mem_cons_self, rfl, rfl⟩
  quiet h := by cases List.mem_singleton.mp h
  differ _ := by
    refine ⟨x, y, List.mem_cons_self, ?_⟩
    rcases h with h | h
    · exact .inr ⟨d, List.mem_cons_self, h⟩
    · exact .inl h
  agree h := by cases h
  inTurn i x' y' here quiet := by
    cases i with
    | zero =>
        cases here
        exact ⟨d, List.mem_cons_self⟩
    | succ i =>
        obtain ⟨same, none⟩ := quiet 0 (Nat.succ_pos i) x y rfl
        rcases h with h | h
        · exact absurd ⟨d, List.mem_cons_self, h⟩ none
        · exact absurd same h

theorem cons {es : List Event} {agree : Bool} (hd : d.isDirect = false) (same : alike x y)
    (run : UpToRun id alike pairs es agree) :
    UpToRun id alike ((x, y) :: pairs) (.asked (id x) (id y) d :: es) agree where
  asked h := by
    rcases List.mem_cons.mp h with h | h
    · cases h
      exact ⟨x, y, List.mem_cons_self, rfl, rfl⟩
    · obtain ⟨x', y', mem, ha, hb⟩ := run.asked h
      exact ⟨x', y', List.mem_cons_of_mem _ mem, ha, hb⟩
  quiet h := by
    rcases List.mem_cons.mp h with h | h
    · cases h
    · exact run.quiet h
  differ h := by
    obtain ⟨x', y', mem, h⟩ := run.differ h
    refine ⟨x', y', List.mem_cons_of_mem _ mem, ?_⟩
    exact h.imp_right fun h => h.mono (List.subset_cons_self _ _)
  agree h := by
    obtain ⟨none, all⟩ := run.agree h
    refine ⟨?_, ?_⟩
    · intro a b direct
      rcases directIn_cons_asked direct with ⟨-, direct⟩ | direct
      · rw [hd] at direct
        cases direct
      · exact none a b direct
    · intro x' y' mem
      rcases List.mem_cons.mp mem with mem | mem
      · cases mem
        exact ⟨same, d, List.mem_cons_self⟩
      · obtain ⟨h, f, hf⟩ := all x' y' mem
        exact ⟨h, f, List.mem_cons_of_mem _ hf⟩
  inTurn i x' y' here quiet := by
    cases i with
    | zero =>
        cases here
        exact ⟨d, List.mem_cons_self⟩
    | succ i =>
        obtain ⟨f, hf⟩ := run.inTurn i x' y' here fun j before x' y' there => by
          obtain ⟨same, none⟩ := quiet (j + 1) (Nat.succ_lt_succ before) x' y' there
          exact ⟨same, fun direct => none (direct.mono (List.subset_cons_self _ _))⟩
        exact ⟨f, List.mem_cons_of_mem _ hf⟩

end UpToRun

/-- Parameters are alike when both or neither may be left out. -/
def Param.Alike (p q : Param) : Prop := p.hasDefault = q.hasDefault

theorem compareParams_does :
    ∀ ps qs, Does visit reach (compareParams visit ps qs)
      (fun es d => UpToRun Param.typeId Param.Alike (ps.zip qs) es (!d.isDirect))
  | p :: ps, q :: qs => by
      refine Does.bind Does.ask ?_
      rintro _ d rfl
      split
      · rename_i h
        rw [Bool.or_eq_true, bne_iff_ne] at h
        exact Does.pure (UpToRun.stop h)
      · rename_i h
        rw [Bool.or_eq_true, bne_iff_ne, not_or, Decidable.not_not, Bool.not_eq_true] at h
        exact (compareParams_does ps qs).mono fun es e run => run.cons h.1 h.2
  | [], _ => Does.pure (by rw [List.zip_nil_left]; exact UpToRun.nil)
  | _ :: _, [] => Does.pure (by rw [List.zip_nil_right]; exact UpToRun.nil)

/-- Bases are alike when they are equally accessible. -/
def Base.Alike (x y : Base) : Prop := x.access = y.access

theorem basesAgreeFrom_does :
    ∀ as bs, Does visit reach (basesAgreeFrom visit as bs)
      (UpToRun Base.typeId Base.Alike (as.zip bs))
  | x :: as, y :: bs => by
      refine Does.bind Does.ask ?_
      rintro _ d rfl
      split
      · rename_i h
        rw [Bool.or_eq_true, bne_iff_ne] at h
        exact Does.pure (UpToRun.stop h)
      · rename_i h
        rw [Bool.or_eq_true, bne_iff_ne, not_or, Decidable.not_not, Bool.not_eq_true] at h
        exact (basesAgreeFrom_does as bs).mono fun es e run => run.cons h.1 h.2
  | [], _ => Does.pure (by rw [List.zip_nil_left]; exact UpToRun.nil)
  | _ :: _, [] => Does.pure (by rw [List.zip_nil_right]; exact UpToRun.nil)

/-! ## Signatures -/

/-- What the comparison of two signatures makes of the answers for their parts. -/
structure SignatureRun (s t : Signature) (es : List Event) (d : Difference) : Prop where
  answer : d = .same ∨ d = .direct
  asked : ∀ {a b e}, .asked a b e ∈ es → ∃ use, s.Part t use a b
  quiet : ∀ {c}, .reported c ∉ es
  direct : d.isDirect → s.Differs t ∨ ∃ a b, s.Part t .passedOn a b ∧ DirectIn es a b
  used : ∀ {a b}, DirectIn es a b → d.isDirect ∧ s.Part t .passedOn a b ∨ s.Part t .dropped a b
  same : d.isDirect = false →
    ¬ s.Differs t ∧ ∀ a b, s.Part t .passedOn a b → ∃ e, .asked a b e ∈ es
  arguments : ∀ {a b}, s.Part t .dropped a b → ∃ e, .asked a b e ∈ es
  returns : ∃ e, .asked s.returns t.returns e ∈ es
  inTurn : s.params.length = t.params.length →
    AsksInTurn Param.typeId Param.Alike (s.params.zip t.params) es

/-- The comparison of two signatures that does not answer direct asks for all parts. -/
theorem SignatureRun.all_asked {s t : Signature} {es : List Event} {d : Difference}
    (run : SignatureRun s t es d) (answer : d.isDirect = false) {use : Use} {a b : String}
    (part : s.Part t use a b) : ∃ e, .asked a b e ∈ es := by
  cases use with
  | passedOn => exact (run.same answer).2 _ _ part
  | dropped => exact run.arguments part
  | reported => cases part

/-- What is known of the parameters of two signatures when they have been compared. -/
structure ParamsRun (s t : Signature) (es : List Event) (d : Difference) : Prop where
  asked : ∀ {a b e}, .asked a b e ∈ es → s.Part t .passedOn a b
  quiet : ∀ {c}, .reported c ∉ es
  direct : d.isDirect → s.Differs t ∨ ∃ a b, DirectIn es a b
  same : d.isDirect = false → s.params.length = t.params.length ∧ (∀ a b, ¬ DirectIn es a b) ∧
    ∀ p q, (p, q) ∈ s.params.zip t.params →
      p.hasDefault = q.hasDefault ∧ ∃ e, .asked p.typeId q.typeId e ∈ es
  inTurn : s.params.length = t.params.length →
    AsksInTurn Param.typeId Param.Alike (s.params.zip t.params) es

theorem params_does (s t : Signature) :
    Does visit reach
      (if s.params.length = t.params.length then compareParams visit s.params t.params
        else pure .direct)
      (ParamsRun s t) := by
  split
  · rename_i length
    refine (compareParams_does s.params t.params).mono ?_
    intro es d run
    refine ⟨?_, run.quiet, ?_, ?_, fun _ => run.inTurn⟩
    · intro a b e h
      obtain ⟨p, q, mem, rfl, rfl⟩ := run.asked h
      exact .param mem
    · intro h
      obtain ⟨p, q, mem, h⟩ := run.differ (by rw [h]; rfl)
      rcases h with h | h
      · exact .inl (.inr (.inr ⟨p, q, mem, h⟩))
      · exact .inr ⟨_, _, h⟩
    · intro h
      exact ⟨length, run.agree (by rw [h]; rfl)⟩
  · rename_i length
    refine Does.pure ⟨?_, ?_, ?_, ?_, fun same => absurd same length⟩
    · intro a b e h
      exact absurd h List.not_mem_nil
    · intro c h
      exact absurd h List.not_mem_nil
    · exact fun _ => .inl (.inl length)
    · intro h
      cases h

section Whole

variable {s t : Signature} {es es' : List Event} {d e : Difference}

/-- Whether the answers for the parameters and the returned types, or the numbers of template
arguments, tell two signatures apart. -/
def signatureBreaks (s t : Signature) (d e : Difference) : Bool :=
  d.isDirect || e.isDirect || !decide (s.templateArgs.length = t.templateArgs.length)

theorem signatureBreaks_iff : signatureBreaks s t d e = true ↔
    (d.isDirect = true ∨ e.isDirect = true)
      ∨ s.templateArgs.length ≠ t.templateArgs.length := by
  simp only [signatureBreaks, Bool.or_eq_true, Bool.not_eq_true', decide_eq_false_iff_not, ne_eq]

theorem ParamsRun.direct_whole (params : ParamsRun s t es d)
    (h : signatureBreaks s t d e = true) : s.Differs t ∨
      ∃ a b, s.Part t .passedOn a b ∧ DirectIn (es ++ .asked s.returns t.returns e :: es') a b := by
  rcases signatureBreaks_iff.mp h with (hd | he) | count
  · rcases params.direct hd with differs | ⟨a, b, f, hf, direct⟩
    · exact .inl differs
    · exact .inr ⟨a, b, params.asked hf, f, List.mem_append_left _ hf, direct⟩
  · exact .inr ⟨_, _, .returns, e, List.mem_append_right _ List.mem_cons_self, he⟩
  · exact .inl (.inr (.inl count))

theorem ParamsRun.used_whole (params : ParamsRun s t es d)
    (args : ∀ {a b f}, .asked a b f ∈ es' → s.Part t .dropped a b) {a b : String}
    (h : DirectIn (es ++ .asked s.returns t.returns e :: es') a b) :
    signatureBreaks s t d e = true ∧ s.Part t .passedOn a b ∨ s.Part t .dropped a b := by
  rcases directIn_append.mp h with h | h
  · obtain ⟨f, hf, -⟩ := id h
    refine .inl ⟨signatureBreaks_iff.mpr (.inl (.inl ?_)), params.asked hf⟩
    cases hd : d.isDirect with
    | true => rfl
    | false => exact absurd h ((params.same hd).2.1 _ _)
  · rcases directIn_cons_asked h with ⟨same, he⟩ | ⟨f, hf, -⟩
    · cases same
      exact .inl ⟨signatureBreaks_iff.mpr (.inl (.inr he)), .returns⟩
    · exact .inr (args hf)

theorem ParamsRun.same_whole (params : ParamsRun s t es d)
    (h : ¬ signatureBreaks s t d e = true) : ¬ s.Differs t ∧ ∀ a b, s.Part t .passedOn a b →
      ∃ f, .asked a b f ∈ es ++ .asked s.returns t.returns e :: es' := by
  rw [signatureBreaks_iff, not_or, not_or, Bool.not_eq_true, ne_eq, Decidable.not_not] at h
  obtain ⟨⟨hd, -⟩, count⟩ := h
  obtain ⟨length, none, all⟩ := params.same hd
  constructor
  · rintro (h | h | ⟨p, q, mem, h⟩)
    · exact h length
    · exact h count
    · exact h (all p q mem).1
  · intro a b part
    cases part with
    | returns => exact ⟨e, List.mem_append_right _ List.mem_cons_self⟩
    | param mem =>
        obtain ⟨-, f, hf⟩ := all _ _ mem
        exact ⟨f, List.mem_append_left _ hf⟩

theorem SignatureRun.of_parts (params : ParamsRun s t es d)
    (args : ∀ {a b f}, .asked a b f ∈ es' → s.Part t .dropped a b)
    (all : ∀ {a b}, s.Part t .dropped a b → ∃ f, .asked a b f ∈ es')
    (quiet : ∀ {c}, .reported c ∉ es') :
    SignatureRun s t (es ++ .asked s.returns t.returns e :: es')
      (if signatureBreaks s t d e then .direct else .same) where
  answer := by
    split
    · exact .inr rfl
    · exact .inl rfl
  asked h := by
    rcases List.mem_append.mp h with h | h
    · exact ⟨_, params.asked h⟩
    · rcases List.mem_cons.mp h with h | h
      · cases h
        exact ⟨_, .returns⟩
      · exact ⟨_, args h⟩
  quiet h := by
    rcases List.mem_append.mp h with h | h
    · exact params.quiet h
    · rcases List.mem_cons.mp h with h | h
      · cases h
      · exact quiet h
  direct h := by
    split at h
    · rename_i breaks
      exact params.direct_whole breaks
    · cases h
  used h := by
    refine (params.used_whole args h).imp_left ?_
    rintro ⟨breaks, part⟩
    rw [if_pos breaks]
    exact ⟨rfl, part⟩
  same h := by
    split at h
    · cases h
    · rename_i agree
      exact params.same_whole agree
  arguments part := by
    obtain ⟨f, hf⟩ := all part
    exact ⟨f, List.mem_append_right _ (List.mem_cons_of_mem _ hf)⟩
  returns := ⟨e, List.mem_append_right _ List.mem_cons_self⟩
  inTurn length := (params.inTurn length).mono (List.subset_append_left _ _)

end Whole

theorem compareSignatures_does (s t : Signature) :
    Does visit reach (compareSignatures visit s t) (SignatureRun s t) := by
  unfold compareSignatures
  rw [← bind_ite_eq]
  refine Does.bind (params_does s t) ?_
  intro es d params
  refine Does.bind Does.ask ?_
  rintro _ e rfl
  dsimp only
  split
  · rename_i count
    refine Does.bind (visitPairs_does _ _) ?_
    intro es' f run
    refine Does.pure ?_
    rw [List.append_nil]
    refine .of_parts params (fun h => .argument (of_decide_eq_true count) (run.asked h)) ?_
      run.quiet
    intro a b part
    cases part with
    | argument _ mem => exact run.complete mem
  · rename_i count
    refine Does.pure ?_
    rw [List.append_nil]
    refine .of_parts params (fun h => absurd h List.not_mem_nil) ?_
      (fun h => absurd h List.not_mem_nil)
    intro a b part
    cases part with
    | argument same => exact absurd (decide_eq_true same) count

end Lists

end AbiCompat
