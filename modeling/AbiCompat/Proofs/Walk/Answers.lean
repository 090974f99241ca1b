/-
# What a look makes of the answers for the parts

A look asks for parts only.  It answers with a direct difference for a reason, and it lets go of a
direct difference of a part in three ways: it answers with one itself, it ends in a finding that
breaks callers, or the part is one whose differences are dropped.

## What is proved

Of every look, with its events and its answer (`Scope.Looks`):

    opens, asked   what it asks for are parts, of two types that it opens
    reporter       only enumerations and records report a change, and which one
    direct         a direct answer has a reason: the two differ by themselves, or a part that
                   passes its differences on was answered with one
    used           what becomes of a direct difference of a part
    settled        without a direct answer there was none to pass on, and all parts that could
                   have had one were asked for

Each is proved first for the runs that looks are made of, over bases, arguments, fields and whole
records, and then put together by the kind of the two types.

No walk comes up here: the answers for the parts are whatever they are.  What is proved about walks
is proved from these five, by induction over walks.
-/
import AbiCompat.Proofs.Walk.Looks

namespace AbiCompat

/-! ## Records -/

section Records

variable {s t : TypeDecl} {a b : RecordLayout} {es : List Event} {d : Difference} {c e : String}
  {ch : Change}

theorem BasesRun.asked {as bs : List Base} {agree : Bool} {f : Difference}
    (run : BasesRun as bs es agree) (h : .asked c e f ∈ es) :
    as.length = bs.length ∧ ∃ x y, (x, y) ∈ as.zip bs ∧ x.typeId = c ∧ y.typeId = e := by
  rcases run with ⟨length, run⟩ | ⟨-, rfl, -⟩
  · exact ⟨length, run.asked h⟩
  · exact absurd h List.not_mem_nil

theorem BasesRun.quiet {as bs : List Base} {agree : Bool} (run : BasesRun as bs es agree) :
    .reported ch ∉ es := by
  rcases run with ⟨-, run⟩ | ⟨-, rfl, -⟩
  · exact run.quiet
  · exact List.not_mem_nil

theorem ArgumentsRun.asked {as bs : List String} {f : Difference}
    (run : ArgumentsRun as bs es d) (h : .asked c e f ∈ es) :
    as.length = bs.length ∧ (c, e) ∈ as.zip bs := by
  rcases run with ⟨length, run⟩ | ⟨-, rfl, -⟩
  · exact ⟨length, run.asked h⟩
  · exact absurd h List.not_mem_nil

theorem ArgumentsRun.quiet {as bs : List String} (run : ArgumentsRun as bs es d) :
    .reported ch ∉ es := by
  rcases run with ⟨-, run⟩ | ⟨-, rfl, -⟩
  · exact run.quiet
  · exact List.not_mem_nil

theorem RecordRun.asked {f : Difference} (run : RecordRun s t a b es d)
    (h : .asked c e f ∈ es) : ∃ use, a.Part b use c e := by
  obtain ⟨fields, bases, args⟩ := run
  rcases List.mem_append.mp h with h | h
  · obtain ⟨use, p, q, judged, rfl, rfl, -⟩ := fields.asked h
    exact ⟨use, .field judged⟩
  rcases List.mem_append.mp h with h | h
  · obtain ⟨length, x, y, mem, rfl, rfl⟩ := bases.asked h
    exact ⟨_, .base length mem⟩
  rcases List.mem_append.mp h with h | h
  · exact absurd h asked_notMem_reportOf
  · obtain ⟨length, mem⟩ := args.asked h
    exact ⟨_, .argument length mem⟩

theorem RecordRun.not_direct (run : RecordRun s t a b es d) : d.isDirect = false := by
  obtain ⟨-, -, -⟩ := run
  split <;> rfl

theorem FieldsRun.breaks_of_differs {olds news : List Field} {v : Answers} {r : FieldsResult}
    (run : FieldsRun olds news v es r) {p q : Located} (judged : Judged olds news .reported p q)
    (differs : v.differs (p, q) = true) : r.difference.isDirect = true := by
  refine run.isDirect.mpr ?_
  rw [run.changed, run.removed]
  cases judged with
  | gone hp hq =>
      refine .inr (List.ne_nil_of_mem (List.mem_map_of_mem (List.mem_filter.mpr ⟨hp, ?_⟩)))
      rw [hq, Option.all_some, differs]
  | namesakes h =>
      exact .inl (List.ne_nil_of_mem (List.mem_map_of_mem (List.mem_filter.mpr ⟨h, differs⟩)))

theorem differs_of_isDirect {v : Answers} {p q : Located} (direct : (v p q).isDirect = true) :
    v.differs (p, q) = true := by
  rw [Answers.differs, Field.differs, direct, Bool.or_true]

/-- A direct difference of a part of a record is dropped or ends in the finding. -/
theorem RecordRun.used (run : RecordRun s t a b es d) (h : DirectIn es c e) :
    a.Part b .dropped c e ∨ ∃ ch, .reported (.record ch) ∈ es := by
  obtain @⟨v, r, agree, args, fes, bes, aes, fields, bases, arguments⟩ := run
  have finding (breaks : recordBreaks s t a b r (!agree) = true) : ∃ ch, .reported (.record ch) ∈
      fes ++ (bes ++ (reportOf (recordBreaks s t a b r (!agree))
        (.record (recordChange s t a b r (!agree))) ++ aes)) :=
    ⟨_, List.mem_append_right _ (List.mem_append_right _ (List.mem_append_left _
      (mem_reportOf.mpr ⟨breaks, rfl⟩)))⟩
  rcases directIn_append.mp h with ⟨f, hf, direct⟩ | h
  · obtain ⟨use, p, q, judged, rfl, rfl, rfl⟩ := fields.asked hf
    cases use with
    | passedOn => cases judged
    | dropped => exact .inl (.field judged)
    | reported =>
        refine .inr (finding ?_)
        rw [recordBreaks, fields.breaks_of_differs judged (differs_of_isDirect direct)]
        simp
  rcases directIn_append.mp h with inBases | h
  · refine .inr (finding ?_)
    rcases bases with ⟨-, run⟩ | ⟨-, rfl, -⟩
    · cases agree with
      | true => exact absurd inBases ((run.agree rfl).1 c e)
      | false => simp [recordBreaks]
    · exact absurd inBases not_directIn_nil
  rcases directIn_append.mp h with ⟨f, hf, -⟩ | ⟨f, hf, -⟩
  · exact absurd hf asked_notMem_reportOf
  · obtain ⟨length, mem⟩ := arguments.asked hf
    exact .inl (.argument length mem)

theorem RecordRun.finding (run : RecordRun s t a b es d) : ∃ v r agree fes,
    FieldsRun a.fields b.fields v fes r ∧ fes ⊆ es ∧
      (recordBreaks s t a b r agree = true → ∃ ch, .reported (.record ch) ∈ es) := by
  obtain @⟨v, r, agree, args, fes, bes, aes, fields, bases, arguments⟩ := run
  refine ⟨v, r, !agree, fes, fields, List.subset_append_left _ _, ?_⟩
  intro breaks
  exact ⟨_, List.mem_append_right _ (List.mem_append_right _ (List.mem_append_left _
    (mem_reportOf.mpr ⟨breaks, rfl⟩)))⟩

theorem RecordRun.reported (run : RecordRun s t a b es d) (h : .reported ch ∈ es) :
    ∃ v r agree fes bes, FieldsRun a.fields b.fields v fes r ∧ BasesRun a.bases b.bases bes agree
      ∧ recordBreaks s t a b r (!agree) = true
      ∧ ch = .record (recordChange s t a b r (!agree)) ∧ fes <+: es ∧ bes ⊆ es := by
  obtain @⟨v, r, agree, args, fes, bes, aes, fields, bases, arguments⟩ := run
  rcases List.mem_append.mp h with h | h
  · exact absurd h fields.quiet
  rcases List.mem_append.mp h with h | h
  · exact absurd h bases.quiet
  rcases List.mem_append.mp h with h | h
  · obtain ⟨breaks, same⟩ := mem_reportOf.mp h
    cases same
    refine ⟨v, r, agree, fes, bes, fields, bases, breaks, rfl, ?_, ?_⟩
    · exact List.prefix_append _ _
    · exact List.Subset.trans (List.subset_append_left _ _) (List.subset_append_right _ _)
  · exact absurd h arguments.quiet

end Records

/-! ## Types and pairs -/

section Pairs

variable {scope : Scope} {s t : TypeDecl} {a b c e : String} {es : List Event} {d f : Difference}

theorem Scope.TypesRun.asked (run : scope.TypesRun s t es d) (h : .asked c e f ∈ es) :
    ∃ use, s.Part t use c e := by
  cases run with
  | differ | builtin => exact absurd h List.not_mem_nil
  | target kind target =>
      cases List.mem_singleton.mp h
      exact ⟨_, .target kind target⟩
  | enum => exact absurd h asked_notMem_reportOf
  | record hs ht _ run =>
      obtain ⟨use, part⟩ := run.asked h
      exact ⟨use, .layout hs ht part⟩
  | function hs ht run =>
      obtain ⟨use, part⟩ := run.asked h
      exact ⟨use, .signature hs ht part⟩

theorem TypeDecl.not_differs_of_enum {x y : EnumLayout} (hs : s.shape = .enum x)
    (ht : t.shape = .enum y) (key : s.linkKey = t.linkKey) : ¬ s.Differs t := by
  intro h
  cases h <;> simp_all [TypeDecl.kind, Shape.kind]

theorem TypeDecl.not_differs_of_record {x y : RecordLayout} (hs : s.shape = .record x)
    (ht : t.shape = .record y) (h : comparable s t x y) : ¬ s.Differs t := by
  intro differs
  unfold comparable at h
  cases differs <;> simp_all [TypeDecl.kind, Shape.kind]

theorem TypeDecl.not_differs_of_function {x y : Signature} (hs : s.shape = .function x)
    (ht : t.shape = .function y) (h : ¬ x.Differs y) : ¬ s.Differs t := by
  intro differs
  cases differs <;> simp_all [TypeDecl.kind, Shape.kind]

theorem Scope.Looks.opens (look : scope.Looks a b es d) (h : .asked c e f ∈ es) :
    scope.Opens (a, b) (c, e) := by
  cases look with
  | unresolved | ignored => exact absurd h List.not_mem_nil
  | types resolves run =>
      obtain ⟨use, part⟩ := run.asked h
      refine ⟨use, _, _, resolves, part, fun differs => ?_⟩
      cases run with
      | differ | builtin => exact absurd h List.not_mem_nil
      | enum => exact absurd h asked_notMem_reportOf
      | target _ _ alike => exact absurd differs alike
      | record hs ht key => exact absurd differs (TypeDecl.not_differs_of_record hs ht key)
      | function hs ht => exact ⟨TypeDecl.kind_of_shape hs, TypeDecl.kind_of_shape ht⟩

/-- A look asks for parts only. -/
theorem Scope.Looks.asked (look : scope.Looks a b es d) (h : .asked c e f ∈ es) :
    ∃ use, scope.Parts use (a, b) (c, e) :=
  (look.opens h).part

/-- What reports a change at a look: two enumerations of which it is the change, or two records
whose run reports it. -/
inductive Scope.Reporter (scope : Scope) (a b : String) (es : List Event) (d : Difference) :
    Change → Prop
  | enum {s t : TypeDecl} {x y : EnumLayout} : scope.Resolves a b s t → s.shape = .enum x →
      t.shape = .enum y → s.linkKey = t.linkKey →
      ((scope.enumChange s t x y).isExtension || (scope.enumChange s t x y).isIncompatible) = true →
      Reporter scope a b es d (.enum (scope.enumChange s t x y))
  | record {s t : TypeDecl} {x y : RecordLayout} {ch : Change} : scope.Resolves a b s t →
      s.shape = .record x → t.shape = .record y → comparable s t x y → RecordRun s t x y es d →
      Reporter scope a b es d ch

theorem Scope.Looks.reporter (look : scope.Looks a b es d) {ch : Change}
    (h : .reported ch ∈ es) : scope.Reporter a b es d ch := by
  cases look with
  | unresolved | ignored => exact absurd h List.not_mem_nil
  | types resolves run =>
      cases run with
      | differ | builtin => exact absurd h List.not_mem_nil
      | target => cases List.mem_singleton.mp h
      | enum hs ht key =>
          obtain ⟨found, same⟩ := mem_reportOf.mp h
          cases same
          exact .enum resolves hs ht key found
      | record hs ht key run => exact .record resolves hs ht key run
      | function _ _ run => exact absurd h run.quiet

theorem Scope.TypesRun.direct (run : scope.TypesRun s t es d) (h : d.isDirect = true) :
    s.Differs t ∨ ∃ c e, s.Part t .passedOn c e ∧ DirectIn es c e := by
  cases run with
  | differ differs => exact .inl differs
  | builtin | enum => cases h
  | target kind target =>
      exact .inr ⟨_, _, .target kind target, _, List.mem_singleton_self _, h⟩
  | record _ _ _ run =>
      rw [run.not_direct] at h
      cases h
  | function hs ht run =>
      rcases run.direct h with differs | ⟨c, e, part, direct⟩
      · exact .inl (.function hs ht differs)
      · exact .inr ⟨c, e, .signature hs ht part, direct⟩

theorem compareUnresolved_eq_of_isDirect {policy : Policy}
    (h : (compareUnresolved policy a b).isDirect = true) :
    compareUnresolved policy a b = .unresolved := by
  refine (compareUnresolved_cases policy a b).resolve_left fun same => ?_
  rw [same] at h
  cases h

/-- The answer is a direct difference for a reason. -/
theorem Scope.Looks.direct (look : scope.Looks a b es d) (h : d.isDirect = true) :
    scope.DiffersHere (a, b) ∨ ∃ q, scope.Passes (a, b) q ∧ DirectIn es q.1 q.2 := by
  cases look with
  | unresolved missing => exact .inl (.unresolved missing (compareUnresolved_eq_of_isDirect h))
  | ignored => cases h
  | types resolves run =>
      rcases run.direct h with differs | ⟨c, e, part, direct⟩
      · exact .inl (.types resolves differs)
      · exact .inr ⟨(c, e), ⟨_, _, resolves, part⟩, direct⟩

theorem Scope.TypesRun.used (run : scope.TypesRun s t es d) (h : DirectIn es c e) :
    d.isDirect = true ∧ s.Part t .passedOn c e ∨ s.Part t .dropped c e
      ∨ ∃ ch, .reported (.record ch) ∈ es := by
  cases run with
  | differ | builtin => exact absurd h not_directIn_nil
  | target kind target =>
      obtain ⟨f, hf, direct⟩ := h
      cases List.mem_singleton.mp hf
      exact .inl ⟨direct, .target kind target⟩
  | enum =>
      obtain ⟨f, hf, -⟩ := h
      exact absurd hf asked_notMem_reportOf
  | record hs ht _ run =>
      rcases run.used h with part | reported
      · exact .inr (.inl (.layout hs ht part))
      · exact .inr (.inr reported)
  | function hs ht run =>
      rcases run.used h with ⟨direct, part⟩ | part
      · exact .inl ⟨direct, .signature hs ht part⟩
      · exact .inr (.inl (.signature hs ht part))

/-- What becomes of a direct difference of a part. -/
theorem Scope.Looks.used (look : scope.Looks a b es d) (h : DirectIn es c e) :
    d.isDirect = true ∧ scope.Passes (a, b) (c, e) ∨ scope.Parts .dropped (a, b) (c, e)
      ∨ ∃ ch, .reported (.record ch) ∈ es := by
  cases look with
  | unresolved | ignored => exact absurd h not_directIn_nil
  | types resolves run =>
      rcases run.used h with ⟨direct, part⟩ | part | reported
      · exact .inl ⟨direct, _, _, resolves, part⟩
      · exact .inr (.inl ⟨_, _, resolves, part⟩)
      · exact .inr (.inr reported)

theorem TypeDecl.Part.passedOn (part : s.Part t .passedOn c e) :
    s.kind = t.kind ∧ s.kind.hasTarget = true ∧ c = s.target ∧ e = t.target
      ∨ ∃ x y, s.shape = .function x ∧ t.shape = .function y ∧ x.Part y .passedOn c e := by
  cases part with
  | target kind target => exact .inl ⟨kind, target, rfl, rfl⟩
  | signature hs ht part => exact .inr ⟨_, _, hs, ht, part⟩
  | layout _ _ part =>
      cases part with
      | field judged => cases judged

theorem TypeDecl.not_passedOn {x : Shape} (hs : s.shape = x) (target : x.kind.hasTarget = false)
    (function : x.kind ≠ .function) : ¬ s.Part t .passedOn c e := by
  intro part
  rcases part.passedOn with ⟨-, h, -⟩ | ⟨y, _, h, -⟩
  · rw [TypeDecl.kind_of_shape hs, target] at h
    cases h
  · rw [h] at hs
    exact function (hs ▸ rfl)

theorem Scope.TypesRun.settled (run : scope.TypesRun s t es d) (h : d.isDirect = false) :
    ¬ s.Differs t ∧ ∀ {c e}, s.Part t .passedOn c e → ∃ f, .asked c e f ∈ es := by
  cases run with
  | differ => cases h
  | builtin hs _ alike =>
      exact ⟨alike, fun part => absurd part (TypeDecl.not_passedOn hs rfl nofun)⟩
  | target kind target alike =>
      refine ⟨alike, ?_⟩
      intro c e part
      rcases part.passedOn with ⟨-, -, rfl, rfl⟩ | ⟨x, _, hs, -⟩
      · exact ⟨d, List.mem_singleton_self _⟩
      · rw [TypeDecl.kind_of_shape hs] at target
        cases target
  | enum hs ht key =>
      exact ⟨TypeDecl.not_differs_of_enum hs ht key,
        fun part => absurd part (TypeDecl.not_passedOn hs rfl nofun)⟩
  | record hs ht alike =>
      exact ⟨TypeDecl.not_differs_of_record hs ht alike,
        fun part => absurd part (TypeDecl.not_passedOn hs rfl nofun)⟩
  | function hs ht run =>
      obtain ⟨alike, all⟩ := run.same h
      refine ⟨TypeDecl.not_differs_of_function hs ht alike, ?_⟩
      intro c e part
      rcases part.passedOn with ⟨-, target, -⟩ | ⟨x, y, hx, hy, part⟩
      · rw [TypeDecl.kind_of_shape hs] at target
        cases target
      · cases hs.symm.trans hx
        cases ht.symm.trans hy
        exact all _ _ part

theorem Scope.Resolves.unique {s' t' : TypeDecl} (h : scope.Resolves a b s t)
    (h' : scope.Resolves a b s' t') : s' = s ∧ t' = t :=
  ⟨Option.some.inj (h'.old.symm.trans h.old), Option.some.inj (h'.new.symm.trans h.new)⟩

theorem Scope.Resolves.not_missing (h : scope.Resolves a b s t) :
    ¬ (scope.old.type? a = none ∨ scope.new.type? b = none) := by
  rintro (none | none)
  · rw [h.old] at none
    cases none
  · rw [h.new] at none
    cases none

theorem Scope.Resolves.differsHere_iff (h : scope.Resolves a b s t) :
    scope.DiffersHere (a, b) ↔ s.Differs t := by
  constructor
  · intro differs
    cases differs with
    | unresolved missing => exact absurd missing h.not_missing
    | types h' differs =>
        obtain ⟨rfl, rfl⟩ := h.unique h'
        exact differs
  · exact .types h

theorem Scope.Resolves.parts_iff {use : Use} {q : String × String}
    (h : scope.Resolves a b s t) : scope.Parts use (a, b) q ↔ s.Part t use q.1 q.2 := by
  constructor
  · rintro ⟨s', t', h', part⟩
    obtain ⟨rfl, rfl⟩ := h.unique h'
    exact part
  · intro part
    exact ⟨s, t, h, part⟩

/-- A look that does not answer with a direct difference has seen none, and has asked for
every part that could have one to pass on. -/
theorem Scope.Looks.settled (look : scope.Looks a b es d) (h : d.isDirect = false) :
    ¬ scope.DiffersHere (a, b) ∧
      ∀ {q}, scope.Passes (a, b) q → ∃ f, .asked q.1 q.2 f ∈ es := by
  cases look with
  | unresolved missing =>
      refine ⟨?_, ?_⟩
      · intro differs
        cases differs with
        | unresolved _ out =>
            rw [out] at h
            cases h
        | types resolves => exact resolves.not_missing missing
      · rintro q ⟨s, t, resolves, -⟩
        exact absurd missing resolves.not_missing
  | ignored hs ht ignored =>
      have kept {s t} (resolves : scope.Resolves a b s t) : False := by
        cases ht.symm.trans resolves.new
        rw [resolves.kept] at ignored
        cases ignored
      refine ⟨?_, ?_⟩
      · intro differs
        cases differs with
        | unresolved missing => simp [hs, ht] at missing
        | types resolves => exact kept resolves
      · rintro q ⟨s, t, resolves, -⟩
        exact (kept resolves).elim
  | types resolves run =>
      obtain ⟨alike, all⟩ := run.settled h
      refine ⟨?_, ?_⟩
      · rw [resolves.differsHere_iff]
        exact alike
      · intro q passes
        exact all (resolves.parts_iff.mp passes)

theorem Scope.Looks.typesRun (look : scope.Looks a b es d) (resolves : scope.Resolves a b s t) :
    scope.TypesRun s t es d := by
  cases look with
  | unresolved missing => exact absurd missing resolves.not_missing
  | ignored _ ht ignored =>
      cases ht.symm.trans resolves.new
      rw [resolves.kept] at ignored
      cases ignored
  | types resolves' run =>
      obtain ⟨rfl, rfl⟩ := resolves.unique resolves'
      exact run

theorem Scope.Looks.recordRun {x y : RecordLayout} (look : scope.Looks a b es d)
    (resolves : scope.Resolves a b s t) (hs : s.shape = .record x) (ht : t.shape = .record y)
    (key : comparable s t x y) : RecordRun s t x y es d := by
  cases look.typesRun resolves with
  | differ differs => exact absurd differs (TypeDecl.not_differs_of_record hs ht key)
  | builtin h | enum h | function h => cases hs.symm.trans h
  | target _ target =>
      rw [TypeDecl.kind_of_shape hs] at target
      cases target
  | record hs' ht' _ run =>
      cases hs.symm.trans hs'
      cases ht.symm.trans ht'
      exact run

end Pairs

end AbiCompat
