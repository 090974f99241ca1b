/-
# Interfaces that agree

An agreement is a set of pairs of ids that contains the parts of its pairs, and in which no pair
differs by itself.  It is what one has in hand when two versions are known to be the same but for
some mild change: the pairs of an id with itself, the pairs of an id with its new spelling, the
pairs that an evolution of types relates.

## What is proved

For an agreement, and for declarations whose own data agree and whose types are in the set:

* a walk over them stays in the set, and no answer that it gets is direct;
* what it finds is mild, in the sense that the agreement was made for.

The argument is one induction on the walk, `Scope.Bounds.of_tour`, fed with two facts about a
single look: the parts of a pair of the set are in the set, and a look at such a pair answers
direct only if some part did.  `RecordsAgree` is where the second one takes work, since fields
without a namesake are held against what stands at their offset.

## What is not

Nothing is said of the symbols and of entities that only one version has; those are compared by
name, and an agreement speaks of ids.  Nor does an agreement exist for any two versions that are
the same to a caller: it must be closed under parts also where the walk would stop early.
-/
import AbiCompat.Proofs.Walk.Bounds

namespace AbiCompat

/-! ## Records that agree

Fields that agree are interchangeable once no answer is direct, so that the lists of changed and
removed fields stay empty, and the bases agree for the same reason. -/

/-- Nothing in the layouts of two records breaks callers, as long as the types do not. -/
structure RecordsAgree (s t : TypeDecl) (a b : RecordLayout) : Prop where
  access : a.access.downgradedTo b.access = false
  room : s.sameRoom t = true
  vtable : vtablesAgree a.vtable b.vtable = true
  baseCount : a.bases.length = b.bases.length
  bases : ∀ {x y}, (x, y) ∈ a.bases.zip b.bases → x.access = y.access
  kept : ∀ {p}, p ∈ oneSided a.fields b.fields → ∃ q, firstAt? b.fields p.1.offset = some q
  fields : ∀ {p q}, Judged a.fields b.fields .reported p q →
    p.1.offset = q.1.offset ∧ p.1.access.downgradedTo q.1.access = false

section Records

variable {s t : TypeDecl} {a b : RecordLayout} {es : List Event} {d : Difference} {ch : Change}
  (indirect : ∀ {c e}, ¬ DirectIn es c e)
include indirect

theorem RecordsAgree.not_differs (agree : RecordsAgree s t a b) {v : Answers} {r : FieldsResult}
    {fes : List Event} (run : FieldsRun a.fields b.fields v fes r) (sub : fes ⊆ es)
    {p q : Located} (judged : Judged a.fields b.fields .reported p q) :
    v.differs (p, q) = false := by
  obtain ⟨offset, access⟩ := agree.fields judged
  cases type : (v p q).isDirect with
  | true => exact absurd ⟨v p q, sub (run.judged judged), type⟩ indirect
  | false => simp [Answers.differs, Field.differs, offset, access, type]

theorem RecordsAgree.fields_not_direct (agree : RecordsAgree s t a b) {v : Answers}
    {r : FieldsResult} {fes : List Event} (run : FieldsRun a.fields b.fields v fes r)
    (sub : fes ⊆ es) : r.difference.isDirect = false := by
  have changed : r.changed = [] := by
    rw [run.changed, List.map_eq_nil_iff, List.filter_eq_nil_iff]
    rintro ⟨p, q⟩ common
    rw [agree.not_differs indirect run sub (.namesakes common)]
    exact Bool.false_ne_true
  have removed : r.removed = [] := by
    rw [run.removed, List.map_eq_nil_iff, List.filter_eq_nil_iff]
    intro p lone
    obtain ⟨q, hq⟩ := agree.kept lone
    rw [hq, Option.all_some, agree.not_differs indirect run sub (.gone lone hq)]
    exact Bool.false_ne_true
  cases h : r.difference.isDirect with
  | false => rfl
  | true =>
      rcases run.isDirect.mp h with h | h
      · exact absurd changed h
      · exact absurd removed h

theorem RecordsAgree.bases_agree (agree : RecordsAgree s t a b) {bes : List Event} {same : Bool}
    (run : BasesRun a.bases b.bases bes same) (sub : bes ⊆ es) : same = true := by
  cases same with
  | true => rfl
  | false =>
      rcases run with ⟨-, run⟩ | ⟨length, -, -⟩
      · obtain ⟨x, y, mem, unlike | direct⟩ := run.differ rfl
        · exact absurd (agree.bases mem) unlike
        · exact absurd (direct.mono sub) indirect
      · exact absurd agree.baseCount length

/-- The comparison of records that agree reports nothing. -/
theorem RecordsAgree.quiet (agree : RecordsAgree s t a b) (run : RecordRun s t a b es d) :
    .reported ch ∉ es := by
  intro h
  obtain ⟨v, r, same, fes, bes, fields, bases, breaks, -, hf, hb⟩ := run.reported h
  rw [recordBreaks, agree.access, agree.room, agree.vtable,
    agree.fields_not_direct indirect fields hf.subset,
    agree.bases_agree indirect bases hb] at breaks
  cases breaks

end Records

/-! ## Agreements -/

/-- A set of pairs of ids that a walk does not leave, and on which it finds only mild
changes. -/
structure Scope.Agreement (scope : Scope) (Mild : Change → Prop) (S : String × String → Prop) :
    Prop where
  parts : ∀ {use p q}, S p → scope.Parts use p q → S q
  alike : ∀ {p}, S p → ¬ scope.DiffersHere p
  records : ∀ {i j s t a b}, S (i, j) → scope.Resolves i j s t → s.shape = .record a →
    t.shape = .record b → RecordsAgree s t a b
  enums : ∀ {i j s t a b}, S (i, j) → scope.Resolves i j s t → s.shape = .enum a →
    t.shape = .enum b → (scope.enumChange s t a b).isIncompatible = false ∧
      ((scope.enumChange s t a b).isExtension = true → Mild (.enum (scope.enumChange s t a b)))

namespace Scope

variable {scope : Scope} {Mild : Change → Prop} {S : String × String → Prop}

theorem Agreement.mild_of_reported (agree : scope.Agreement Mild S) {a b : String}
    (within : S (a, b)) {es : List Event} {d : Difference} (look : scope.Looks a b es d)
    (indirect : ∀ {c e}, ¬ DirectIn es c e) {ch : Change} (h : .reported ch ∈ es) : Mild ch := by
  cases look.reporter h with
  | enum resolves hs ht _ found =>
      obtain ⟨compatible, mild⟩ := agree.enums within resolves hs ht
      rw [compatible, Bool.or_false] at found
      exact mild found
  | record resolves hs ht _ run =>
      exact absurd h ((agree.records within resolves hs ht).quiet indirect run)

/-- A walk within the agreement stays there, and no answer is direct. -/
theorem Agreement.bounds (agree : scope.Agreement Mild S) :
    scope.Bounds S (fun _ => False) Mild where
  parts within opens := by
    obtain ⟨use, part⟩ := opens.part
    exact agree.parts within part
  answer within look indirect direct := by
    rcases look.direct direct with here | ⟨q, -, direct⟩
    · exact agree.alike within here
    · exact indirect direct
  reported within look indirect h := agree.mild_of_reported within look indirect h

end Scope

/-! ## Declarations that agree

The comparison of two declarations that agree asks for pairs of the set, and reports nothing of its
own as long as none of them differs directly. -/

section Entries

variable {S : String × String → Prop}

/-- Two declarations whose own data agree, and whose types are in the set. -/
inductive Entry.Agrees (S : String × String → Prop) : Entry → Prop
  | function {f g : FunctionDecl} : ¬ f.signature.Differs g.signature →
      (∀ {use a b}, f.signature.Part g.signature use a b → S (a, b)) → f.access = g.access →
      Agrees S (.function f g)
  | global {f g : GlobalDecl} : S (f.typeId, g.typeId) → f.access = g.access →
      Agrees S (.global f g)
  | type {s t : TypeDecl} : S (s.id, t.id) → Agrees S (.type s t)

theorem Entry.Agrees.within {T D : String × String → Prop} {J : Change → Prop} {e : Entry}
    (agrees : e.Agrees S) (sub : ∀ {p}, S p → T p) (alike : ∀ {p}, S p → ¬ D p) :
    Scope.Within T D J e where
  asked run h := by
    obtain ⟨use, part⟩ := run.asked h
    cases agrees with
    | function _ parts =>
        cases part with
        | signature part => exact sub (parts part)
    | global within =>
        cases part
        exact sub within
    | type within =>
        cases part
        exact sub within
  reported run direct h := by
    exfalso
    cases run.reason h with
    | function reason =>
        cases agrees with
        | function same parts access =>
            rcases reason with unequal | differs | ⟨a, b, part, different⟩
            · exact unequal access
            · exact same differs
            · exact alike (parts part) (direct different)
    | global reason =>
        cases agrees with
        | global within access =>
            rcases reason with unequal | different
            · exact unequal access
            · exact alike within (direct different)

end Entries

namespace Scope

variable {scope : Scope} {Mild : Change → Prop} {S : String × String → Prop}

/-- Where all declarations agree, a walk finds mild changes only. -/
theorem Agreement.mild_of_mem_findings (agree : scope.Agreement Mild S)
    (exported : ∀ e ∈ scope.exports, e.Agrees S) (declared : ∀ e ∈ scope.userTypes, e.Agrees S) :
    ∀ f ∈ (scope.walk.run .start).2.findings, Mild f.change :=
  agree.bounds.of_walk (fun e h => (exported e h).within id fun _ => id)
    (fun e h => (declared e h).within id fun _ => id)

end Scope

end AbiCompat
