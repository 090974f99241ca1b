/-
# What a record tells of its parts

The comparison of two records answers with one word for all its parts.  `answerRecords` is the same
comparison with the answers for the parts written down, and `RecordShows` says which of them the
word takes up: those for the fields and the template arguments, whatever they are, and those for
the bases only where they are direct.  What is different inside a base alone is lost.

## What is proved

`answerRecords` is `compareRecords` with more to tell (`compareRecords_eq_answers`), so what is
said of its answers is said of the program.  Two records that are comparable and meet for the first
time differ inside when something of them shows, and are the same when nothing does; and there is
an answer for each pair of fields that is judged.  A structure whose base grows, while it is itself
as it was, is the same.

## What is not

An answer is what the walk gives at that point, with what it noted before; whether it is the right
one for the two ids is told in `Justified` from one side, and in `Hidden` and `Masked` from the
other.  Records of other kinds or with other names of their own are not comparable, and never come
so far.
-/
import AbiCompat.Proofs.Walk.Ending

namespace AbiCompat

section Answers

variable {visit : Visit} {reach : Reach}

/-! ## The answers for the parts -/

/-- The types and accesses of two bases tell them apart, given how the types differ. -/
def Base.differs (x y : Base) (d : Difference) : Bool := d.isDirect || x.access != y.access

/-- The pairs of bases that are compared, with the answers: all up to the first that differ. -/
def answerBases (visit : Visit) :
    List (Base × Base) → Walking (List ((Base × Base) × Difference))
  | [] => return []
  | (x, y) :: rest => do
    let d ← visit x.typeId y.typeId
    if x.differs y d then return [((x, y), d)]
    else return ((x, y), d) :: (← answerBases visit rest)

/-- The answers for pairs of ids. -/
def answerPairs (visit : Visit) : List (String × String) → Walking (List Difference)
  | [] => return []
  | (a, b) :: rest => do
    let d ← visit a b
    return d :: (← answerPairs visit rest)

/-- Whether no answer tells two bases apart. -/
def basesKeep (answers : List ((Base × Base) × Difference)) : Bool :=
  answers.all fun x => !x.1.1.differs x.1.2 x.2

theorem basesAgreeFrom_eq (as bs : List Base) : basesAgreeFrom visit as bs
    = (do return basesKeep (← answerBases visit (as.zip bs))) := by
  induction as generalizing bs with
  | nil => rfl
  | cons x as ih =>
      cases bs with
      | nil => rfl
      | cons y bs =>
          rw [basesAgreeFrom, List.zip_cons_cons, answerBases, bind_assoc]
          refine bind_congr fun d => ?_
          show (if x.differs y d then _ else _) = _
          split
          · rename_i differ
            simp [basesKeep, differ]
          · rename_i alike
            rw [ih, bind_assoc]
            simp [basesKeep, alike]

theorem visitPairs_eq (as bs : List String) : visitPairs visit as bs
    = (do return (← answerPairs visit (as.zip bs)).foldr .combine .same) := by
  induction as generalizing bs with
  | nil => rfl
  | cons a as ih =>
      cases bs with
      | nil => rfl
      | cons b bs =>
          rw [visitPairs, List.zip_cons_cons, answerPairs, bind_assoc]
          refine bind_congr fun d => ?_
          rw [ih, bind_assoc, bind_assoc]
          simp

/-- The answers for two lists of bases, of which the comparison asks only if they are equally
long. -/
def basesAnswers (visit : Visit) (as bs : List Base) :
    Walking (List ((Base × Base) × Difference)) :=
  if as.length = bs.length then answerBases visit (as.zip bs) else pure []

/-- The answers for two lists of template arguments. -/
def argumentsAnswers (visit : Visit) (as bs : List String) : Walking (List Difference) :=
  if as.length = bs.length then answerPairs visit (as.zip bs) else pure []

/-- Whether the bases are found to be the same to a caller. -/
def basesFound (as bs : List Base) (answers : List ((Base × Base) × Difference)) : Bool :=
  decide (as.length = bs.length) && basesKeep answers

/-- How much the template arguments are found to differ. -/
def argumentsFound (as bs : List String) (answers : List Difference) : Difference :=
  if as.length = bs.length then answers.foldr .combine .same else .direct

theorem basesAgree_eq (as bs : List Base) :
    basesAgree visit as bs = (do return basesFound as bs (← basesAnswers visit as bs)) := by
  unfold basesAgree basesAnswers basesFound
  split
  · rename_i length
    rw [basesAgreeFrom_eq]
    simp [length]
  · rename_i length
    simp [length]

theorem compareArguments_eq (as bs : List String) : compareArguments visit as bs
    = (do return argumentsFound as bs (← argumentsAnswers visit as bs)) := by
  unfold compareArguments argumentsAnswers argumentsFound
  split
  · rw [visitPairs_eq]
  · rw [pure_bind]

/-! ## The comparison with its answers written down

The bases are compared up to the first pair that is told apart, so the answers are those for the
first pairs; where no two are told apart, all of them are there. -/

/-- What the comparison of two records is answered for their parts. -/
structure PartAnswers where
  fields : FieldsResult
  docket : Docket
  bases : List ((Base × Base) × Difference)
  arguments : List Difference

/-- The word for the whole. -/
def PartAnswers.difference (r : PartAnswers) (s t : TypeDecl) (a b : RecordLayout) : Difference :=
  if recordBreaks s t a b r.fields (!basesFound a.bases b.bases r.bases)
      || r.fields.difference.isAny
      || (argumentsFound a.templateArgs b.templateArgs r.arguments).isAny
    then .nested else .same

/-- The comparison of two records with the answers for the parts. -/
def answerRecords (visit : Visit) (reach : Reach) (s t : TypeDecl) (a b : RecordLayout) :
    Walking PartAnswers := do
  let x ← (judgeFields visit a.fields b.fields).run []
  let bases ← basesAnswers visit a.bases b.bases
  reportIf reach (recordBreaks s t a b x.1 (!basesFound a.bases b.bases bases))
    (.record (recordChange s t a b x.1 (!basesFound a.bases b.bases bases)))
  let arguments ← argumentsAnswers visit a.templateArgs b.templateArgs
  return ⟨x.1, x.2, bases, arguments⟩

variable {s t : TypeDecl} {a b : RecordLayout}

/-- Nothing but the word for the whole becomes of the answers. -/
theorem compareRecords_eq_answers (h : comparable s t a b) :
    compareRecords visit reach s t a b
      = (do return (← answerRecords visit reach s t a b).difference s t a b) := by
  rw [compareRecords_eq h, answerRecords, compareFields, basesAgree_eq, compareArguments_eq]
  simp only [bind_assoc, pure_bind]
  rfl

theorem answerBases_cons_run (x y : Base) (rest : List (Base × Base)) (w : Walk) :
    ((answerBases visit ((x, y) :: rest)).run w).1
      = ((x, y), ((visit x.typeId y.typeId).run w).1)
        :: if x.differs y ((visit x.typeId y.typeId).run w).1 then []
          else ((answerBases visit rest).run ((visit x.typeId y.typeId).run w).2).1 := by
  show ((if x.differs y ((visit x.typeId y.typeId).run w).1 then _ else _ : Walking _).run
    ((visit x.typeId y.typeId).run w).2).1 = _
  split <;> rfl

theorem answerBases_first (pairs : List (Base × Base)) (w : Walk) :
    ((answerBases visit pairs).run w).1.map Prod.fst <+: pairs := by
  induction pairs generalizing w with
  | nil => exact List.prefix_refl _
  | cons p rest ih =>
      rw [answerBases_cons_run, List.map_cons]
      refine List.prefix_cons_inj _ |>.mpr ?_
      split
      · exact List.nil_prefix
      · exact ih _

theorem answerBases_all {pairs : List (Base × Base)} {w : Walk}
    (keep : basesKeep ((answerBases visit pairs).run w).1 = true) :
    ((answerBases visit pairs).run w).1.map Prod.fst = pairs := by
  induction pairs generalizing w with
  | nil => rfl
  | cons p rest ih =>
      rw [answerBases_cons_run] at keep ⊢
      rw [basesKeep, List.all_cons, Bool.and_eq_true, Bool.not_eq_true'] at keep
      obtain ⟨alike, keep⟩ := keep
      simp only [alike] at keep ⊢
      exact congrArg (p :: ·) (ih keep)

theorem basesKeep_eq_false_iff {pairs : List (Base × Base)} {w : Walk} :
    basesKeep ((answerBases visit pairs).run w).1 = false ↔
      (∃ x y, (x, y) ∈ pairs ∧ x.access ≠ y.access)
        ∨ ∃ x d, (x, d) ∈ ((answerBases visit pairs).run w).1 ∧ d.isDirect = true := by
  constructor
  · intro broken
    obtain ⟨⟨⟨x, y⟩, d⟩, mem, differ⟩ := List.all_eq_false.mp broken
    rw [Bool.not_eq_true', Bool.not_eq_false, Base.differs, Bool.or_eq_true, bne_iff_ne] at differ
    rcases differ with direct | access
    · exact .inr ⟨_, d, mem, direct⟩
    · exact .inl ⟨x, y, (answerBases_first pairs w).subset (List.mem_map_of_mem mem), access⟩
  · intro found
    by_contra whole
    rw [Bool.not_eq_false] at whole
    have alike {x y d} (mem : ((x, y), d) ∈ ((answerBases visit pairs).run w).1) :
        d.isDirect = false ∧ x.access = y.access := by
      have same := List.all_eq_true.mp whole _ mem
      simpa [Base.differs] using same
    rcases found with ⟨x, y, mem, access⟩ | ⟨⟨x, y⟩, d, mem, direct⟩
    · rw [← answerBases_all whole] at mem
      obtain ⟨⟨p, d⟩, mem, rfl⟩ := List.mem_map.mp mem
      exact access (alike mem).2
    · rw [(alike mem).1] at direct
      cases direct

theorem basesFound_eq_false_iff {as bs : List Base} {w : Walk} :
    basesFound as bs ((basesAnswers visit as bs).run w).1 = false ↔ as.length ≠ bs.length
      ∨ (∃ x y, (x, y) ∈ as.zip bs ∧ x.access ≠ y.access)
      ∨ ∃ x d, (x, d) ∈ ((basesAnswers visit as bs).run w).1 ∧ d.isDirect = true := by
  unfold basesFound basesAnswers
  by_cases length : as.length = bs.length
  · rw [if_pos length, decide_eq_true length, Bool.true_and, basesKeep_eq_false_iff]
    simp [length]
  · simp [length]

theorem isAny_foldr_combine {ds : List Difference} :
    (ds.foldr Difference.combine .same).isAny = true ↔ ∃ d ∈ ds, d.isAny = true := by
  induction ds with
  | nil => simp
  | cons d ds ih => simp [ih]

theorem isAny_argumentsFound_iff {as bs : List String} {ds : List Difference} :
    (argumentsFound as bs ds).isAny = true ↔
      as.length ≠ bs.length ∨ as.length = bs.length ∧ ∃ d ∈ ds, d.isAny = true := by
  unfold argumentsFound
  split
  · rename_i length
    simp [isAny_foldr_combine, length]
  · rename_i length
    simp [length]

end Answers

/-! ## What the word takes up

What ends in a finding shows, and more shows than ends in a finding. -/

/-- The answers for the parts of two records, and what the records say of themselves, that make
the whole more than the same.  An answer for a base counts only if it is direct. -/
inductive RecordShows (s t : TypeDecl) (a b : RecordLayout) (r : PartAnswers) : Prop
  | size : s.size ≠ t.size → RecordShows s t a b r
  | alignment : s.alignment ≠ t.alignment → RecordShows s t a b r
  | vtable : a.vtable.map Slot.seen ≠ b.vtable.map Slot.seen → RecordShows s t a b r
  | access : a.access.downgradedTo b.access = true → RecordShows s t a b r
  | baseCount : a.bases.length ≠ b.bases.length → RecordShows s t a b r
  | baseAccess {x y : Base} : (x, y) ∈ a.bases.zip b.bases → x.access ≠ y.access →
      RecordShows s t a b r
  | base {x : Base × Base} {d : Difference} : (x, d) ∈ r.bases → d.isDirect = true →
      RecordShows s t a b r
  | changed : r.fields.changed ≠ [] → RecordShows s t a b r
  | removed : r.fields.removed ≠ [] → RecordShows s t a b r
  | namesakes {p q : Located} : (p, q) ∈ (namedFields a.fields).common (namedFields b.fields) →
      r.docket.answers p q ≠ .same → RecordShows s t a b r
  | interchangeable {use : Use} {p q : Located} : Judged a.fields b.fields use p q →
      r.docket.answers.differs (p, q) = false → r.docket.answers p q ≠ .same →
      RecordShows s t a b r
  | argumentCount : a.templateArgs.length ≠ b.templateArgs.length → RecordShows s t a b r
  | argument {d : Difference} : d ∈ r.arguments → d ≠ .same → RecordShows s t a b r

section Word

variable {visit : Visit} {reach : Reach} {s t : TypeDecl} {a b : RecordLayout} {r : PartAnswers}
  {es : List Event}

theorem isAny_iff {d : Difference} : d.isAny = true ↔ d ≠ .same := by
  rw [Difference.isAny, bne_iff_ne]

/-- Whatever differs about fields that are held against each other shows, but for what is
dropped. -/
theorem FieldsRun.shows_iff (run : FieldsRun a.fields b.fields r.docket.answers es r.fields) :
    r.fields.difference.isAny = true ↔ r.fields.changed ≠ [] ∨ r.fields.removed ≠ []
      ∨ (∃ p q, (p, q) ∈ (namedFields a.fields).common (namedFields b.fields)
        ∧ r.docket.answers p q ≠ .same)
      ∨ ∃ use p q, Judged a.fields b.fields use p q ∧ r.docket.answers.differs (p, q) = false
        ∧ r.docket.answers p q ≠ .same := by
  simp only [run.isAny, isAny_iff]
  constructor
  · rintro ((changed | removed) | inside)
    · exact .inl changed
    · exact .inr (.inl removed)
    · exact .inr (.inr (.inr inside))
  · rintro (changed | removed | ⟨p, q, common, other⟩ | inside)
    · exact .inl (.inl changed)
    · exact .inl (.inr removed)
    · cases differ : r.docket.answers.differs (p, q) with
      | false => exact .inr ⟨_, p, q, .namesakes common, differ, other⟩
      | true =>
          refine .inl (.inl ?_)
          rw [run.changed]
          exact List.ne_nil_of_mem (List.mem_map_of_mem (List.mem_filter.mpr ⟨common, differ⟩))
    · exact .inr inside

theorem RecordShows.of_breaks (fields : FieldsRun a.fields b.fields r.docket.answers es r.fields)
    {w : Walk} (bases : r.bases = ((basesAnswers visit a.bases b.bases).run w).1)
    (breaks : recordBreaks s t a b r.fields (!basesFound a.bases b.bases r.bases) = true) :
    RecordShows s t a b r := by
  simp only [recordBreaks, Bool.or_eq_true, Bool.not_eq_true', TypeDecl.sameRoom_eq_false_iff,
    vtablesAgree_eq_false_iff] at breaks
  rcases breaks with (((access | size | alignment) | vtable) | direct) | found
  · exact .access access
  · exact .size size
  · exact .alignment alignment
  · exact .vtable vtable
  · rcases fields.isDirect.mp direct with changed | removed
    · exact .changed changed
    · exact .removed removed
  · rw [bases, basesFound_eq_false_iff, ← bases] at found
    rcases found with count | ⟨x, y, mem, access⟩ | ⟨x, d, mem, direct⟩
    · exact .baseCount count
    · exact .baseAccess mem access
    · exact .base mem direct

theorem recordShows_iff (fields : FieldsRun a.fields b.fields r.docket.answers es r.fields)
    {w : Walk} (bases : r.bases = ((basesAnswers visit a.bases b.bases).run w).1) :
    RecordShows s t a b r ↔
      recordBreaks s t a b r.fields (!basesFound a.bases b.bases r.bases) = true
        ∨ r.fields.difference.isAny = true
        ∨ (argumentsFound a.templateArgs b.templateArgs r.arguments).isAny = true := by
  have whole := @basesFound_eq_false_iff visit a.bases b.bases w
  rw [← bases] at whole
  constructor
  · intro shows
    cases shows with
    | size h => exact .inl (by simp [recordBreaks, TypeDecl.sameRoom_eq_false_iff.mpr (.inl h)])
    | alignment h => exact .inl (by simp [recordBreaks, TypeDecl.sameRoom_eq_false_iff.mpr (.inr h)])
    | vtable h => exact .inl (by simp [recordBreaks, vtablesAgree_eq_false_iff.mpr h])
    | access h => exact .inl (by simp [recordBreaks, h])
    | baseCount h => exact .inl (by simp [recordBreaks, whole.mpr (.inl h)])
    | baseAccess mem h =>
        exact .inl (by simp [recordBreaks, whole.mpr (.inr (.inl ⟨_, _, mem, h⟩))])
    | base mem h => exact .inl (by simp [recordBreaks, whole.mpr (.inr (.inr ⟨_, _, mem, h⟩))])
    | changed h => exact .inr (.inl (fields.shows_iff.mpr (.inl h)))
    | removed h => exact .inr (.inl (fields.shows_iff.mpr (.inr (.inl h))))
    | namesakes mem h =>
        exact .inr (.inl (fields.shows_iff.mpr (.inr (.inr (.inl ⟨_, _, mem, h⟩)))))
    | interchangeable judged alike h =>
        exact .inr (.inl (fields.shows_iff.mpr (.inr (.inr (.inr ⟨_, _, _, judged, alike, h⟩)))))
    | argumentCount h => exact .inr (.inr (isAny_argumentsFound_iff.mpr (.inl h)))
    | argument mem h =>
        refine .inr (.inr (isAny_argumentsFound_iff.mpr ?_))
        by_cases count : a.templateArgs.length = b.templateArgs.length
        · exact .inr ⟨count, _, mem, isAny_iff.mpr h⟩
        · exact .inl count
  · rintro (breaks | inside | arguments)
    · exact .of_breaks fields bases breaks
    · rcases fields.shows_iff.mp inside with h | h | ⟨p, q, mem, h⟩ | ⟨use, p, q, judged, alike, h⟩
      · exact .changed h
      · exact .removed h
      · exact .namesakes mem h
      · exact .interchangeable judged alike h
    · rcases isAny_argumentsFound_iff.mp arguments with h | ⟨-, d, mem, h⟩
      · exact .argumentCount h
      · exact .argument mem (isAny_iff.mp h)

theorem PartAnswers.difference_eq
    (fields : FieldsRun a.fields b.fields r.docket.answers es r.fields)
    {w : Walk} (bases : r.bases = ((basesAnswers visit a.bases b.bases).run w).1) :
    RecordShows s t a b r ∧ r.difference s t a b = .nested
      ∨ ¬ RecordShows s t a b r ∧ r.difference s t a b = .same := by
  rw [recordShows_iff (s := s) (t := t) fields bases, ← Bool.or_eq_true, ← Bool.or_eq_true,
    ← Bool.or_assoc]
  unfold difference
  split
  · rename_i shows
    exact .inl ⟨shows, rfl⟩
  · rename_i silent
    exact .inr ⟨silent, rfl⟩

end Word

/-! ## The comparison of a pair of records -/

namespace Scope

variable {scope : Scope} {reach : Reach} {a b : String} {s t : TypeDecl} {x y : RecordLayout}
  {w : Walk}

/-- The answers for the parts of a pair of records, in a comparison that notes the pair first. -/
def recordAnswers (scope : Scope) (reach : Reach) (a b : String) (s t : TypeDecl)
    (x y : RecordLayout) (w : Walk) : PartAnswers :=
  ((answerRecords (scope.compareIds reach) reach s t x y).run
    (w.enter (a, b) (scope.old.typeName a))).1

theorem compareIds_eq_difference (fresh : (a, b) ∉ w.visited) (resolves : scope.Resolves a b s t)
    (hs : s.shape = .record x) (ht : t.shape = .record y) (key : comparable s t x y) :
    ((scope.compareIds reach a b).run w).1
      = (scope.recordAnswers reach a b s t x y w).difference s t x y := by
  rw [compareIds_run_fresh fresh, compareFresh_eq]
  show ((scope.look (scope.compareIds reach) reach a b).run
    (w.enter (a, b) (scope.old.typeName a))).1 = _
  rw [look, resolves.old, resolves.new]
  show ((scope.compareTypes (scope.compareIds reach) reach s t).run _).1 = _
  rw [compareTypes, resolves.kept, hs, ht]
  show ((compareRecords (scope.compareIds reach) reach s t x y).run _).1 = _
  rw [compareRecords_eq_answers key]
  rfl

end Scope

/-- Two records that are comparable and meet for the first time differ inside when something of
them shows, and are the same when nothing does.  There is an answer for each pair of fields that
is judged. -/
theorem compareIds_record (scope : Scope) (reach : Reach) {a b : String} {s t : TypeDecl}
    {x y : RecordLayout} {w : Walk} (fresh : (a, b) ∉ w.visited)
    (resolves : scope.Resolves a b s t) (hs : s.shape = .record x) (ht : t.shape = .record y)
    (key : comparable s t x y) :
    (RecordShows s t x y (scope.recordAnswers reach a b s t x y w)
          ∧ ((scope.compareIds reach a b).run w).1 = .nested
        ∨ ¬ RecordShows s t x y (scope.recordAnswers reach a b s t x y w)
          ∧ ((scope.compareIds reach a b).run w).1 = .same)
      ∧ (scope.recordAnswers reach a b s t x y w).docket.Settles x.fields y.fields := by
  obtain ⟨es, -, fields, settles⟩ := @judgeFields_does (scope.compareIds reach) reach x.fields
    y.fields (w.enter (a, b) (scope.old.typeName a))
  refine ⟨?_, settles⟩
  rw [Scope.compareIds_eq_difference fresh resolves hs ht key]
  exact PartAnswers.difference_eq fields rfl

/-! ## A base that differs inside -/

/-- A structure without fields. -/
def plainLayout (bases : List Base) : RecordLayout :=
  ⟨[], bases, [], .structRecord, false, [], .pub⟩

def baseDecl (size : UInt64) : TypeDecl :=
  ⟨"b", "base", "", "base", "", size, 4, .record (plainLayout [])⟩

def derivedDecl : TypeDecl :=
  ⟨"d", "derived", "", "derived", "", 16, 4, .record (plainLayout [⟨"b", false, .pub⟩])⟩

/-- A structure and its base, which has the given size. -/
def derivedFrom (size : UInt64) : Interface :=
  { Interface.empty with types := .ofList [baseDecl size, derivedDecl] }

/-- The scope in which the base grows. -/
def growingBase : Scope := ⟨derivedFrom 4, derivedFrom 8, .plain⟩

/-- The base differs inside, and the derived structure is the same. -/
theorem derived_same_though_base_nested :
    ((growingBase.compareIds .referenced "d" "d").run .start).1 = .same
      ∧ (growingBase.recordAnswers .referenced "d" "d" derivedDecl derivedDecl
          (plainLayout [⟨"b", false, .pub⟩]) (plainLayout [⟨"b", false, .pub⟩]) .start).bases
        = [((⟨"b", false, .pub⟩, ⟨"b", false, .pub⟩), .nested)] :=
  ⟨by decide, by decide⟩

/-- Nothing of the derived structure shows. -/
theorem derived_shows_nothing : ("d", "d") ∉ Walk.start.visited
    ∧ growingBase.Resolves "d" "d" derivedDecl derivedDecl
    ∧ derivedDecl.shape = .record (plainLayout [⟨"b", false, .pub⟩])
    ∧ comparable derivedDecl derivedDecl (plainLayout [⟨"b", false, .pub⟩])
      (plainLayout [⟨"b", false, .pub⟩])
    ∧ ¬ RecordShows derivedDecl derivedDecl (plainLayout [⟨"b", false, .pub⟩])
      (plainLayout [⟨"b", false, .pub⟩]) (growingBase.recordAnswers .referenced "d" "d" derivedDecl
        derivedDecl (plainLayout [⟨"b", false, .pub⟩]) (plainLayout [⟨"b", false, .pub⟩])
        .start) := by
  have fresh : ("d", "d") ∉ Walk.start.visited := List.not_mem_nil
  have resolves : growingBase.Resolves "d" "d" derivedDecl derivedDecl :=
    ⟨by decide, by decide, rfl⟩
  obtain ⟨⟨-, inside⟩ | ⟨silent, -⟩, -⟩ :=
    compareIds_record growingBase .referenced fresh resolves rfl rfl (.inr (.inr rfl))
  · exact absurd inside (by decide)
  · exact ⟨fresh, resolves, rfl, .inr (.inr rfl), silent⟩

end AbiCompat
