/-
# A version compared with itself

A walk of an interface against itself meets every id with itself, as long as every field is held
against itself.  A field with a name is.  A field without one is held against the first field at
its offset, so that two of them that share an offset, as the members of a union do, may be taken
for each other.  `SelfMatching` excludes just that.

## What is proved

    SelfMatching   ↔   every interface with such field lists, this one among them, is unchanged
                       against itself

From left to right it is the theory of agreements: an interface with self-matching field lists
agrees with itself.  From right to left an interface is made for a field list that is not
self-matching (`clash`): a global variable of a record with these fields, and for the ids of the
two fields that are taken for each other two records of different sizes.  It is incompatible with
itself, and has no other field lists than the given one.

## What is not

An interface may be unchanged against itself though a field list of it is not self-matching,
because the fields that are taken for each other have types that do not differ.  That is why the
equivalence quantifies over interfaces with such field lists.  A union of an `int` and a `long`,
neither of which has a name, is an instance of the bad case.
-/
import Mathlib.Data.Fintype.EquivFin
import AbiCompat.Proofs.Agreement
import AbiCompat.Proofs.Walk.Marks

namespace AbiCompat

/-- Whether the comparison found nothing at all. -/
structure Outcome.Unchanged (o : Outcome) : Prop where
  findings : o.findings = []
  lone : o.lone = []
  symbols : o.symbols = []
  verdict : o.verdict = .compatible

/-- The first field at the offset of a field without a name can stand for it. -/
def SelfMatching (fields : List Field) : Prop :=
  ∀ p ∈ fields, p.name = "" → ∀ q, fields.find? (fun q => q.offset == p.offset) = some q →
    q.typeId = p.typeId ∧ p.access.downgradedTo q.access = false

/-- The field lists of all records are self-matching. -/
def Interface.SelfMatching (m : Interface) : Prop :=
  ∀ t ∈ m.types.items, ∀ layout, t.shape = .record layout →
    AbiCompat.SelfMatching layout.fields

/-! ## Parts of a thing and itself

Fields that are held against each other have one type where lists match themselves, and so every
part is a part with itself; and nothing differs from itself by its own declaration. -/

theorem unnamed_of_mem_oneSided_self {fields : List Field} {p : Located}
    (h : p ∈ oneSided fields fields) : p.1 ∈ fields ∧ p.1.name = "" := by
  obtain ⟨here, lone⟩ := mem_oneSided.mp h
  refine ⟨mem_of_mem_located here, ?_⟩
  rcases lone with unnamed | lone
  · exact unnamed
  · exact absurd rfl (lone p.1 (mem_of_mem_located here))

theorem Judged.typeId_eq_of_self {fields : List Field} (matching : SelfMatching fields) {use : Use}
    {p q : Located} (judged : Judged fields fields use p q) : p.1.typeId = q.1.typeId := by
  cases judged with
  | gone lone hq =>
      obtain ⟨mem, unnamed⟩ := unnamed_of_mem_oneSided_self lone
      exact (matching _ mem unnamed _ (find?_of_firstAt? hq)).1.symm
  | new lone hp =>
      obtain ⟨mem, unnamed⟩ := unnamed_of_mem_oneSided_self lone
      exact (matching _ mem unnamed _ (find?_of_firstAt? hp)).1
  | namesakes h => rw [Catalog.eq_of_mem_common_self h]

theorem TypeDecl.Part.eq_of_self {s : TypeDecl}
    (matching : ∀ layout, s.shape = .record layout → SelfMatching layout.fields) {use : Use}
    {a b : String} (part : s.Part s use a b) : a = b := by
  cases part with
  | target => rfl
  | signature hs ht part =>
      cases hs.symm.trans ht
      exact part.eq_of_self
  | layout hs ht part =>
      cases hs.symm.trans ht
      cases part with
      | field judged => exact judged.typeId_eq_of_self (matching _ hs)
      | base _ mem => rw [eq_of_mem_zip_self mem]
      | argument _ mem => exact eq_of_mem_zip_self mem

theorem TypeDecl.not_differs_self (s : TypeDecl) : ¬ s.Differs s := by
  intro h
  cases h with
  | kind h => exact h rfl
  | builtin hs ht h =>
      cases hs.symm.trans ht
      simp at h
  | qualified hs ht h =>
      cases hs.symm.trans ht
      exact h rfl
  | array _ _ h => simp at h
  | enum _ _ h => exact h rfl
  | record _ _ _ _ h => exact h rfl
  | function hs ht h =>
      cases hs.symm.trans ht
      exact Signature.not_differs_self _ h

theorem RecordsAgree.self {s : TypeDecl} {a : RecordLayout} (matching : SelfMatching a.fields) :
    RecordsAgree s s a a where
  access := Access.downgradedTo_self _
  room := TypeDecl.sameRoom_eq_true_iff.mpr ⟨rfl, rfl⟩
  vtable := vtablesAgree_self _
  baseCount := rfl
  bases mem := by rw [eq_of_mem_zip_self mem]
  kept lone := by
    obtain ⟨mem, -⟩ := unnamed_of_mem_oneSided_self lone
    obtain ⟨q, hq⟩ := exists_firstAt? mem
    exact ⟨q, hq⟩
  fields judged := by
    cases judged with
    | @gone p q lone hq =>
        obtain ⟨mem, unnamed⟩ := unnamed_of_mem_oneSided_self lone
        exact ⟨(offset_of_firstAt? hq).symm,
          (matching _ mem unnamed _ (find?_of_firstAt? hq)).2⟩
    | namesakes h =>
        rw [Catalog.eq_of_mem_common_self h]
        exact ⟨rfl, Access.downgradedTo_self _⟩

theorem Scope.enumChange_self (m : Interface) (policy : Policy) (s : TypeDecl) (a : EnumLayout) :
    (Scope.enumChange ⟨m, m, policy⟩ s s a a).isIncompatible = false ∧
      (Scope.enumChange ⟨m, m, policy⟩ s s a a).isExtension = false := by
  have changed : (Scope.enumChange ⟨m, m, policy⟩ s s a a).changed = [] := by
    refine List.filter_eq_nil_iff.mpr ?_
    rintro ⟨x, y⟩ mem
    simp [Catalog.eq_of_mem_common_self mem]
  constructor
  · rw [EnumChange.isIncompatible, changed]
    simp [enumChange]
  · simp [EnumChange.isExtension, enumChange]

/-! ## The agreement of an interface with itself

Nothing comes or goes where no version lacks what the other one has.  What is found is what the
agreement allows, which is nothing; and where nothing is listed the verdict is that the versions
are compatible. -/

section Self

variable {m m' : Interface} {policy : Policy}

theorem Scope.Resolves.eq_of_self {a : String} {s t : TypeDecl}
    (h : Scope.Resolves ⟨m, m, policy⟩ a a s t) : s = t :=
  Option.some.inj (h.old.symm.trans h.new)

/-- An interface with self-matching field lists agrees with itself, with no change at all. -/
theorem Interface.SelfMatching.agreement (matching : m.SelfMatching) :
    Scope.Agreement ⟨m, m, policy⟩ (fun _ => False) (fun p => p.1 = p.2) where
  parts {use p q} same := by
    obtain ⟨a, b⟩ := p
    rintro ⟨s, t, resolves, part⟩
    cases same
    cases resolves.eq_of_self
    exact part.eq_of_self fun layout shape => matching s (Catalog.mem_of_find? resolves.old) _ shape
  alike {p} same := by
    obtain ⟨a, b⟩ := p
    cases same
    intro differs
    cases differs with
    | unresolved _ out =>
        rw [compareUnresolved_self] at out
        cases out
    | types resolves differs =>
        cases resolves.eq_of_self
        exact TypeDecl.not_differs_self _ differs
  records same resolves hs ht := by
    cases same
    cases resolves.eq_of_self
    cases hs.symm.trans ht
    exact .self (matching _ (Catalog.mem_of_find? resolves.old) _ hs)
  enums {i j s t a b} same resolves hs ht := by
    cases same
    cases resolves.eq_of_self
    cases hs.symm.trans ht
    obtain ⟨compatible, unextended⟩ := Scope.enumChange_self m policy s a
    refine ⟨compatible, ?_⟩
    intro extension
    rw [unextended] at extension
    cases extension

theorem Catalog.eq_of_find?_self {α : Type} {key : α → String} {c : Catalog key} {x y : α}
    (hx : x ∈ c.items) (hy : c.find? (key x) = some y) : x = y :=
  Option.some.inj ((Catalog.find?_key hx).symm.trans hy)

theorem Scope.exports_agree_self {e : Entry} (mem : e ∈ Scope.exports ⟨m, m, policy⟩) :
    e.Agrees (fun p => p.1 = p.2) := by
  rcases mem_exports.mp mem with ⟨f, g, common, rfl⟩ | ⟨f, g, common, rfl⟩
  · cases Catalog.eq_of_find?_self common.old common.new
    exact .function (Signature.not_differs_self _) (fun part => part.eq_of_self) rfl
  · cases Catalog.eq_of_find?_self common.old common.new
    exact .global rfl rfl

theorem Scope.userTypes_agree_self {e : Entry} (mem : e ∈ Scope.userTypes ⟨m, m, policy⟩) :
    e.Agrees (fun p => p.1 = p.2) := by
  rw [userTypes, List.mem_append, List.mem_map, List.mem_map] at mem
  rcases mem with ⟨⟨s, t⟩, mem, rfl⟩ | ⟨⟨s, t⟩, mem, rfl⟩
  · obtain ⟨hs, ht, -⟩ := mem_keptPairs.mp mem
    cases Catalog.eq_of_find?_self hs ht
    exact .type rfl
  · obtain ⟨hs, ht, -⟩ := mem_keptPairs.mp mem
    cases Catalog.eq_of_find?_self hs ht
    exact .type rfl

theorem Scope.loneChanges_eq_nil {scope : Scope}
    (functions : ∀ d, (scope.holder d).functions.without (scope.other d).functions = [])
    (globals : ∀ d, (scope.holder d).globals.without (scope.other d).globals = [])
    (records : ∀ d, (recordsByKey (scope.holder d)).without (recordsByKey (scope.other d)) = [])
    (enums : ∀ d, (enumsByKey (scope.holder d)).without (enumsByKey (scope.other d)) = []) :
    scope.loneChanges = [] := by
  simp [loneChanges, loneFunctions, loneGlobals, loneRecords, loneEnums, loneTypes, functions,
    globals, records, enums]

theorem Scope.allSymbolChanges_eq_nil {scope : Scope}
    (symbols : ∀ kind d,
      (symbolsOf (scope.holder d) kind).without (symbolsOf (scope.other d) kind) = []) :
    scope.allSymbolChanges = [] := by
  simp [allSymbolChanges, symbolChanges, symbols]

theorem Scope.loneChanges_self (m : Interface) (policy : Policy) :
    Scope.loneChanges ⟨m, m, policy⟩ = [] := by
  refine loneChanges_eq_nil ?_ ?_ ?_ ?_ <;>
    intro d <;> cases d <;> simp [holder, other]

theorem Scope.allSymbolChanges_self (m : Interface) (policy : Policy) :
    Scope.allSymbolChanges ⟨m, m, policy⟩ = [] := by
  refine allSymbolChanges_eq_nil fun kind d => ?_
  cases d <;> simp [holder, other]

theorem unchanged_compare (findings : (compare m m' policy).findings = [])
    (lone : Scope.loneChanges ⟨m, m', policy⟩ = [])
    (symbols : Scope.allSymbolChanges ⟨m, m', policy⟩ = []) :
    (compare m m' policy).Unchanged := by
  have lone' : (compare m m' policy).lone = [] := lone
  have symbols' : (compare m m' policy).symbols = [] := symbols
  refine ⟨findings, lone', symbols', ?_⟩
  rw [verdict_compare, findings, lone', symbols']
  rfl

/-- An interface with self-matching field lists is unchanged against itself. -/
theorem Interface.SelfMatching.unchanged (matching : m.SelfMatching) (policy : Policy) :
    (compare m m policy).Unchanged := by
  have findings : (compare m m policy).findings = [] := by
    refine List.eq_nil_iff_forall_not_mem.mpr ?_
    intro f hf
    exact matching.agreement.mild_of_mem_findings
      (fun _ => Scope.exports_agree_self) (fun _ => Scope.userTypes_agree_self) f hf
  exact unchanged_compare findings (Scope.loneChanges_self m policy)
    (Scope.allSymbolChanges_self m policy)

end Self

/-! ## Field lists that are not self-matching -/

theorem exists_fresh (names : List String) : ∃ name, name ∉ names := by
  obtain ⟨name, fresh⟩ := Infinite.exists_notMem_finset names.toFinset
  exact ⟨name, fun mem => fresh (List.mem_toFinset.mpr mem)⟩

/-- A record without a name of its own that has nothing but a size. -/
def blank (id key : String) (size : UInt64) : TypeDecl :=
  ⟨id, key, "", "", "", size, 0, .record ⟨[], [], [], .structRecord, true, [], .pub⟩⟩

/-- A record with the given fields. -/
def holding (id key : String) (fields : List Field) : TypeDecl :=
  ⟨id, key, "", "", "", 0, 0, .record ⟨fields, [], [], .unionRecord, false, [], .pub⟩⟩

/-- A global variable of a record with the given fields, and two more records, of different
sizes, for two types that the fields may have. -/
def clash (key id a b : String) (fields : List Field) : Interface :=
  { Interface.empty with
    types := .ofList [blank a key 1, blank b key 2, holding id key fields]
    globals := .ofList [⟨key, "", "", id, .pub⟩] }

section Clash

variable {key id a b : String} {fields : List Field} {policy : Policy}

theorem clash_type? (x : String) : (clash key id a b fields).type? x =
    [holding id key fields, blank b key 2, blank a key 1].find? (fun t => t.id == x) :=
  Catalog.find?_ofList _ x

theorem breaks_of_record {f : Finding} {ch : RecordChange} (reach : f.reach = .referenced)
    (change : f.change = .record ch) : Verdict.breaks f = true := by
  rw [Verdict.breaks, reach, change]
  rfl

theorem Scope.Looked.record {scope : Scope} {w : Walk} {i j : String} {s t : TypeDecl}
    {x y : RecordLayout} (looked : scope.Looked .referenced w (i, j))
    (resolves : scope.Resolves i j s t) (hs : s.shape = .record x) (ht : t.shape = .record y)
    (key : comparable s t x y) : ∃ v r agree es, FieldsRun x.fields y.fields v es r ∧
      (∀ {c e d}, .asked c e d ∈ es → (c, e) ∈ w.visited) ∧
      (recordBreaks s t x y r agree = true → ∃ f ∈ w.findings, Verdict.breaks f = true) := by
  obtain ⟨look, asked, reported⟩ := looked
  obtain ⟨v, r, agree, es, fields, sub, finding⟩ := (look.recordRun resolves hs ht key).finding
  refine ⟨v, r, agree, es, fields, fun mem => asked (sub mem), ?_⟩
  intro breaks
  obtain ⟨ch, mem⟩ := finding breaks
  obtain ⟨f, hf, reach, change⟩ := reported mem
  exact ⟨f, hf, breaks_of_record reach change⟩

/-- A field without a name is held against the first field at its offset. -/
theorem judged_of_unnamed {p q : Field} (mem : p ∈ fields) (unnamed : p.name = "")
    (first : fields.find? (fun q => q.offset == p.offset) = some q) :
    ∃ x y : Located, Judged fields fields .reported x y ∧ x.1 = p ∧ y.1 = q := by
  obtain ⟨x, hx, rfl⟩ := exists_located mem
  rw [← firstAt?_map] at first
  obtain ⟨y, hy, rfl⟩ := Option.map_eq_some_iff.mp first
  exact ⟨x, y, .gone (mem_oneSided.mpr ⟨hx, .inl unnamed⟩) hy, rfl, rfl⟩

theorem clash_breaks_of_judged {olds news : List Field} {use : Use} {x y : Located}
    (judged : Judged olds news use x y) (unlike : y.1.typeId ≠ x.1.typeId
      ∨ use = .reported ∧ x.1.access.downgradedTo y.1.access = true)
    (freshP : id ≠ x.1.typeId) (freshQ : id ≠ y.1.typeId) (kept : policy.ignores key = false) :
    ∃ f ∈ (compare (clash key id x.1.typeId y.1.typeId olds)
      (clash key id x.1.typeId y.1.typeId news) policy).findings, Verdict.breaks f = true := by
  let m := clash key id x.1.typeId y.1.typeId olds
  let m' := clash key id x.1.typeId y.1.typeId news
  obtain ⟨w, exported, rest⟩ := (Scope.mk m m' policy).walk_tour
  suffices found : ∃ f ∈ w.findings, Verdict.breaks f = true by
    obtain ⟨f, hf, breaks⟩ := found
    exact ⟨f, rest.grows.findings hf, breaks⟩
  have common : (Scope.mk m m' policy).CommonGlobal ⟨key, "", "", id, .pub⟩
      ⟨key, "", "", id, .pub⟩ :=
    ⟨List.mem_singleton_self _, Catalog.find?_key (List.mem_singleton_self _), kept⟩
  have whole (fields : List Field) : (clash key id x.1.typeId y.1.typeId fields).type? id
      = some (holding id key fields) := by
    rw [clash_type?]
    simp [holding]
  obtain ⟨v, r, agree, es, run, asked, finding⟩ :=
    (exported.looked _ (exported.global_noted common)).record ⟨whole olds, whole news, kept⟩
      rfl rfl (.inr (.inr rfl))
  -- other types are two blank records of different sizes, which are found themselves, at
  -- whatever point of the walk; a lesser access is found with the record that has the fields
  rcases unlike with types | ⟨rfl, access⟩
  · have old : m.type? x.1.typeId = some (blank x.1.typeId key 1) := by
      rw [clash_type?]
      simp [holding, blank, freshP, types]
    have new : m'.type? y.1.typeId = some (blank y.1.typeId key 2) := by
      rw [clash_type?]
      simp [holding, blank, freshQ]
    obtain ⟨_, r', agree', _, -, -, finding'⟩ :=
      (exported.looked _ (asked (run.judged judged))).record ⟨old, new, kept⟩ rfl rfl
        (.inr (.inr rfl))
    refine finding' ?_
    have room : (blank x.1.typeId key 1).sameRoom (blank y.1.typeId key 2) = false := by
      simp [TypeDecl.sameRoom, blank]
    rw [recordBreaks, room]
    simp
  · refine finding ?_
    have differs : v.differs (x, y) = true := by
      simp [Answers.differs, Field.differs, access]
    rw [recordBreaks, run.breaks_of_differs judged differs]
    simp

/-- Where the first field at an offset cannot stand for another one there, some interface
with a record of these fields is incompatible with itself. -/
theorem clash_incompatible {p q : Field} (mem : p ∈ fields) (unnamed : p.name = "")
    (first : fields.find? (fun q => q.offset == p.offset) = some q)
    (unlike : q.typeId ≠ p.typeId ∨ p.access.downgradedTo q.access = true)
    (freshP : id ≠ p.typeId) (freshQ : id ≠ q.typeId) (kept : policy.ignores key = false) :
    (compare (clash key id p.typeId q.typeId fields) (clash key id p.typeId q.typeId fields)
      policy).verdict.isIncompatible = true := by
  obtain ⟨x, y, judged, rfl, rfl⟩ := judged_of_unnamed mem unnamed first
  obtain ⟨f, found, breaks⟩ :=
    clash_breaks_of_judged judged (unlike.imp_right fun access => ⟨rfl, access⟩) freshP freshQ kept
  exact isIncompatible_compare_of_breaks found breaks

end Clash

theorem exists_incompatible_of_not_selfMatching {fields : List Field}
    (unmatched : ¬ SelfMatching fields) (policy : Policy) :
    ∃ m : Interface, (∀ t ∈ m.types.items, ∀ layout, t.shape = .record layout →
        layout.fields = fields ∨ layout.fields = []) ∧
      (compare m m policy).verdict.isIncompatible = true := by
  obtain ⟨p, mem, unnamed, q, first, unlike⟩ : ∃ p ∈ fields, p.name = "" ∧
      ∃ q, fields.find? (fun q => q.offset == p.offset) = some q ∧
        (q.typeId ≠ p.typeId ∨ p.access.downgradedTo q.access = true) := by
    simpa [SelfMatching, imp_iff_not_or] using unmatched
  obtain ⟨key, kept⟩ := exists_fresh policy.ignored.keys
  obtain ⟨id, fresh⟩ := exists_fresh [p.typeId, q.typeId]
  rw [List.mem_cons, List.mem_singleton, not_or] at fresh
  refine ⟨clash key id p.typeId q.typeId fields, ?_,
    clash_incompatible mem unnamed first unlike fresh.1 fresh.2 (Catalog.contains_eq_false kept)⟩
  intro t ht layout shape
  have listed := Catalog.mem_of_mem_ofList ht
  simp only [List.mem_cons, List.not_mem_nil, or_false] at listed
  rcases listed with rfl | rfl | rfl
  · cases shape
    exact .inr rfl
  · cases shape
    exact .inr rfl
  · cases shape
    exact .inl rfl

/-- Every record of the first interface has the fields of some record of the second, or no
fields at all. -/
def Interface.FieldsFrom (m' m : Interface) : Prop :=
  ∀ t ∈ m'.types.items, ∀ layout, t.shape = .record layout → layout.fields = [] ∨
    ∃ s ∈ m.types.items, ∃ layout', s.shape = .record layout' ∧ layout'.fields = layout.fields

theorem Interface.SelfMatching.of_fieldsFrom {m m' : Interface} (matching : m.SelfMatching)
    (fields : m'.FieldsFrom m) : m'.SelfMatching := by
  intro t ht layout shape
  rcases fields t ht layout shape with none | ⟨s, hs, layout', shape', same⟩
  · rw [none]
    exact fun p mem => absurd mem List.not_mem_nil
  · rw [← same]
    exact matching s hs layout' shape'

/-- Self-matching is what it takes for interfaces with such field lists, the one given among
them, to be unchanged against themselves: without it, some interface with no other field
lists is not. -/
theorem selfMatching_iff_unchanged_self (m : Interface) (policy : Policy) :
    m.SelfMatching ↔
      ∀ m' : Interface, m'.FieldsFrom m → (compare m' m' policy).Unchanged := by
  constructor
  · intro matching m' fields
    exact (matching.of_fieldsFrom fields).unchanged policy
  · intro unchanged s hs layout shape
    by_contra unmatched
    obtain ⟨m', fields, incompatible⟩ := exists_incompatible_of_not_selfMatching unmatched policy
    have verdict : (compare m' m' policy).verdict = .compatible := by
      refine (unchanged m' fun t ht layout' shape' => ?_).verdict
      rcases fields t ht layout' shape' with same | none
      · exact .inr ⟨s, hs, layout, shape, same.symm⟩
      · exact .inl none
    rw [verdict] at incompatible
    cases incompatible

/-- A global variable of a union of an `int` and a `long`, neither of which has a name. -/
def namelessMembers : Interface :=
  { Interface.empty with
    types := .ofList [
      ⟨"i", "int", "", "int", "", 4, 4, .builtin ⟨false, true⟩⟩,
      ⟨"l", "long", "", "long", "", 8, 8, .builtin ⟨false, true⟩⟩,
      ⟨"u", "u", "", "u", "", 8, 8,
        .record ⟨[⟨"", "i", 0, .pub⟩, ⟨"", "l", 0, .pub⟩], [], [], .unionRecord, false, [], .pub⟩⟩]
    globals := .ofList [⟨"g", "", "g", "u", .pub⟩] }

/-- The second member is held against the first one, and the union breaks its own callers. -/
theorem not_unchanged_self : ¬ ∀ (m : Interface) (policy : Policy),
    (compare m m policy).Unchanged := by
  intro h
  have verdict := (h namelessMembers .plain).verdict
  revert verdict
  decide

end AbiCompat
