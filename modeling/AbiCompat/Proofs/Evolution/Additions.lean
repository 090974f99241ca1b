/-
# More fields

A field that only the new record has is never listed as a change.  But before it is taken for new,
its type is compared with that of the first old field at its offset, since the one may be the other
under a new name; and where an old field has no name, an added one may come first at its offset and
be taken for it.  Such a trial is a comparison like any other, and what it comes to on its way is
found.

## What is proved

For two interfaces of which the second has more fields in its records, and more types:

    (all trials are silent) → the comparison finds nothing

and, for interfaces that are unchanged against themselves, how far field lists alone can tell: if
an added field is only ever tried out on one of its own type, the trials are silent; and if some
field is tried out on one of another type, there are two interfaces with no other field lists, the
second with more fields, between which something is found.

`Silent` says of two ids that nothing which their comparison may open, at whatever depth, would be
reported.  The walk then stays within the pairs of a type and what it has become, and the silent
ones.

## What is not

It is not so that fields may be added wherever they fit.  The two examples at the end are a `long`
beside an `int` in a union, which is not found, and a second record without a name beside the
first, which is.  Nor is anything said of sizes and alignments: they stay as they are here, so an
addition has its room already.
-/
import AbiCompat.Proofs.Enumerations
import AbiCompat.Proofs.Evolution.FieldNames

namespace AbiCompat

/-! ## Field lists

A field of the new record that is not new is an old one, and namesakes are one field.  So fields
that are held against each other are tried out on each other because some were added, or they are
of one type, and interchangeable where a difference counts. -/

instance {olds : List Field} {q : Field} : Decidable (q.NewlyNamed olds) :=
  inferInstanceAs (Decidable (_ ∧ _))

/-- The new fields are the old ones, in their order, and between them fields of new names, at
whatever offsets and of whatever types. -/
def FieldsGained (olds news : List Field) : Prop :=
  news.filter (fun q => ¬ q.NewlyNamed olds) = olds

instance {olds news : List Field} : Decidable (FieldsGained olds news) :=
  inferInstanceAs (Decidable (_ = _))

/-- The fields that are tried out on each other because some were added: an added field on the
first old one at its offset, and an old field without a name on an added one that comes first at
its offset. -/
inductive Tried (olds news : List Field) : Use → Field → Field → Prop
  | added {p q : Field} : q ∈ news → q.NewlyNamed olds →
      olds.find? (fun p => p.offset == q.offset) = some p → Tried olds news .dropped p q
  | displaced {p q : Field} : p ∈ olds → p.name = "" →
      news.find? (fun q => q.offset == p.offset) = some q → q.NewlyNamed olds →
      Tried olds news .reported p q

/-- Fields that are tried out on each other have one type, and an added field that is taken for
an old one has no lesser access. -/
def AdditionsMatch (olds news : List Field) : Prop :=
  ∀ use p q, Tried olds news use p q →
    q.typeId = p.typeId ∧ (use = .reported → p.access.downgradedTo q.access = false)

theorem Tried.judged {olds news : List Field} {use : Use} {p q : Field}
    (tried : Tried olds news use p q) :
    ∃ x y : Located, Judged olds news use x y ∧ x.1 = p ∧ y.1 = q := by
  cases tried with
  | added mem new first =>
      obtain ⟨y, hy, rfl⟩ := exists_located mem
      rw [← firstAt?_map] at first
      obtain ⟨x, hx, rfl⟩ := Option.map_eq_some_iff.mp first
      exact ⟨x, y, .new (mem_oneSided.mpr ⟨hy, .inr new.2⟩) hx, rfl, rfl⟩
  | displaced mem unnamed first new =>
      obtain ⟨x, hx, rfl⟩ := exists_located mem
      rw [← firstAt?_map] at first
      obtain ⟨y, hy, rfl⟩ := Option.map_eq_some_iff.mp first
      exact ⟨x, y, .gone (mem_oneSided.mpr ⟨hx, .inl unnamed⟩) hy, rfl, rfl⟩

namespace FieldsGained

variable {olds news : List Field} {p q : Field}

theorem mem_new (h : FieldsGained olds news) (mem : p ∈ olds) : p ∈ news := by
  rw [← h] at mem
  exact (List.mem_filter.mp mem).1

theorem mem_old (h : FieldsGained olds news) (mem : q ∈ news) (known : ¬ q.NewlyNamed olds) :
    q ∈ olds := by
  rw [← h]
  exact List.mem_filter.mpr ⟨mem, by simpa using known⟩

theorem find?_old (h : FieldsGained olds news) {test : Field → Bool}
    (found : news.find? test = some q) (known : ¬ q.NewlyNamed olds) :
    olds.find? test = some q := by
  obtain ⟨passes, before, after, rfl, none⟩ := List.find?_eq_some_iff_append.mp found
  conv => lhs; rw [← h]
  rw [List.filter_append, List.filter_cons_of_pos (by simpa using known), List.find?_append,
    List.find?_cons_of_pos passes, List.find?_eq_none.mpr]
  · rfl
  · -- the filter takes fields away, so that what failed the test before still does
    intro r mem
    simpa using none r (List.mem_filter.mp mem).1

theorem fieldOf?_eq (h : FieldsGained olds news) (mem : p ∈ olds) :
    fieldOf? news p.name = fieldOf? olds p.name := by
  unfold fieldOf?
  conv => rhs; rw [← h, ← List.filter_reverse, List.find?_filter]
  refine congrArg (fun test => news.reverse.find? test) (funext fun q => ?_)
  by_cases same : q.name = p.name
  · have known : ¬ q.NewlyNamed olds := fun new => new.2 p mem same.symm
    simp [same, known]
  · simp [same]

theorem eq_of_namesakes (h : FieldsGained olds news) {x y : Located}
    (common : (x, y) ∈ (namedFields olds).common (namedFields news)) : y.1 = x.1 := by
  have same := Catalog.key_eq_of_mem_common common
  obtain ⟨here, there⟩ := Catalog.mem_common.mp common
  have old := mem_of_mem_located (mem_of_mem_namedFields here)
  have named := name_ne_of_mem_namedFields here
  have first : fieldOf? olds x.1.name = some x.1 := by
    rw [← find?_namedFields olds named, ← Located.name, Catalog.find?_key here]
    rfl
  rw [← h.fieldOf?_eq old, ← find?_namedFields news named, ← Located.name, there] at first
  exact Option.some.inj first

/-- Fields that are held against each other are tried out on each other, or they are of one type,
and interchangeable where a difference counts. -/
theorem tried_of_judged (h : FieldsGained olds news) (self : SelfMatching olds) {use : Use}
    {x y : Located} (judged : Judged olds news use x y) : Tried olds news use x.1 y.1
      ∨ y.1.typeId = x.1.typeId ∧ (use = .reported → x.1.offset = y.1.offset
        ∧ x.1.access.downgradedTo y.1.access = false) := by
  obtain ⟨hx, hy⟩ := judged.mem_located
  have old := mem_of_mem_located hx
  have new := mem_of_mem_located hy
  cases judged with
  | gone lone first =>
      have found := find?_of_firstAt? first
      -- an old field that is named has its namesake, which is itself
      have unnamed : x.1.name = "" := by
        refine (mem_oneSided.mp lone).2.resolve_right fun none => ?_
        exact none x.1 (h.mem_new old) rfl
      by_cases added : y.1.NewlyNamed olds
      · exact .inl (.displaced old unnamed found added)
      · obtain ⟨types, access⟩ := self x.1 old unnamed y.1 (h.find?_old found added)
        exact .inr ⟨types, fun _ => ⟨(offset_of_find? found).symm, access⟩⟩
  | new lone first =>
      have found := find?_of_firstAt? first
      by_cases added : y.1.NewlyNamed olds
      · exact .inl (.added new added found)
      · have kept := h.mem_old new added
        have unnamed : y.1.name = "" :=
          (mem_oneSided.mp lone).2.resolve_right fun none => none y.1 kept rfl
        exact .inr ⟨(self y.1 kept unnamed x.1 found).1.symm, nofun⟩
  | namesakes common =>
      rw [h.eq_of_namesakes common]
      exact .inr ⟨rfl, fun _ => ⟨rfl, Access.downgradedTo_self _⟩⟩

end FieldsGained

/-! ## What a comparison may report

What the comparison of a silent pair opens is silent.  Two types of different make are silent,
unless they are functions, since nothing inside them is looked at. -/

namespace Scope

variable {scope : Scope} {p q : String × String}

/-- Two types whose comparison is found: records that break callers, or enumerations of one key
that differ. -/
inductive Reports (scope : Scope) (p : String × String) : Prop
  | record {s t : TypeDecl} {a b : RecordLayout} : scope.Resolves p.1 p.2 s t →
      s.shape = .record a → t.shape = .record b → comparable s t a b →
      scope.LayoutBreaks s t a b → Reports scope p
  | enum {s t : TypeDecl} {a b : EnumLayout} : scope.Resolves p.1 p.2 s t →
      s.shape = .enum a → t.shape = .enum b → s.linkKey = t.linkKey →
      scope.EnumsDiffer a b → Reports scope p

/-- Nothing that the comparison of the pair may come to is found. -/
def Silent (scope : Scope) (p : String × String) : Prop :=
  ∀ q, Relation.ReflTransGen scope.Opens p q → ¬ scope.Reports q

theorem Silent.opens (h : scope.Silent p) (opens : scope.Opens p q) : scope.Silent q :=
  fun r further => h r (.head opens further)

theorem Silent.of_differs {s t : TypeDecl} (resolves : scope.Resolves p.1 p.2 s t)
    (differs : s.Differs t) (other : s.kind ≠ .function) : scope.Silent p := by
  intro q way
  rcases way.cases_head with rfl | ⟨r, ⟨use, s', t', resolves', part, functions⟩, -⟩
  · intro reports
    cases reports with
    | record resolves' hs ht key =>
        obtain ⟨rfl, rfl⟩ := resolves.unique resolves'
        exact TypeDecl.not_differs_of_record hs ht key differs
    | enum resolves' hs ht key =>
        obtain ⟨rfl, rfl⟩ := resolves.unique resolves'
        exact TypeDecl.not_differs_of_enum hs ht key differs
  · -- of types of different make none but functions are opened
    obtain ⟨rfl, rfl⟩ := resolves.unique resolves'
    exact absurd (functions differs).1 other

/-- What a look reports is found between the two types. -/
theorem Looks.reports {a b : String} {es : List Event} {d : Difference} {ch : Change}
    (look : scope.Looks a b es d)
    (direct : ∀ {c e}, DirectIn es c e → scope.DirectlyDiffers (c, e))
    (h : .reported ch ∈ es) : scope.Reports (a, b) := by
  cases look.reason direct h with
  | enum resolves reason => exact .enum resolves reason.old reason.new reason.key reason.differs
  | record resolves reason =>
      exact .record resolves reason.old reason.new reason.key reason.layoutBreaks

end Scope

/-! ## Types and interfaces

The parts of a type and of what it has become are the same ids, but for fields that are held
against each other; and no type differs directly from what it has become. -/

/-- A record may have more fields; everything else is as it was. -/
inductive TypeDecl.Gains (s : TypeDecl) : TypeDecl → Prop
  | record {a : RecordLayout} {fields : List Field} : s.shape = .record a →
      FieldsGained a.fields fields → Gains s { s with shape := .record { a with fields := fields } }
  | other : s.kind ≠ .record → Gains s s

/-- There are more fields in the records of an interface, and more types, of which it knew
nothing; everything else is as it was. -/
structure Interface.Gains (m m' : Interface) : Prop where
  kept : m' = { m with types := m'.types }
  types : m.TypesBecome m' TypeDecl.Gains

/-- The additions to all records match. -/
def Interface.AdditionsMatch (m m' : Interface) : Prop :=
  ∀ olds news, m.HasFieldLists m' olds news → AbiCompat.AdditionsMatch olds news

/-- The trial of one field on another one is silent: the types are one, or they are silent, and if
the trial counts the fields do not differ. -/
def Scope.TrialSilent (scope : Scope) (use : Use) (p q : Field) : Prop :=
  (q.typeId = p.typeId ∨ scope.Silent (p.typeId, q.typeId))
    ∧ (use = .reported → ¬ scope.FieldsDiffer p q)

/-- Wherever fields of a record are held against each other, it is silent. -/
def Scope.TrialsSilent (scope : Scope) : Prop :=
  ∀ olds news, scope.old.HasFieldLists scope.new olds news →
    ∀ use x y, Judged olds news use x y → scope.TrialSilent use x.1 y.1

theorem TypeDecl.Gains.remains {s t : TypeDecl} (h : s.Gains t) : s.Remains t := by
  cases h with
  | @record a fields shape =>
      refine ⟨rfl, rfl, ?_, ?_, ?_⟩
      · simp [TypeDecl.isUserDefined, shape]
      · simp [TypeDecl.record?, shape]
      · simp [TypeDecl.enum?, shape]
  | other => exact ⟨rfl, rfl, rfl, rfl, rfl⟩

theorem TypeDecl.Gains.not_differs {s t : TypeDecl} (h : s.Gains t) : ¬ s.Differs t := by
  cases h with
  | record shape => exact TypeDecl.not_differs_of_record shape rfl (.inr (.inr rfl))
  | other => exact TypeDecl.not_differs_self s

theorem TypeDecl.Gains.part_cases {s t : TypeDecl} (h : s.Gains t) {use : Use} {c e : String}
    (part : s.Part t use c e) : c = e ∨ ∃ a b x y, s.shape = .record a ∧ t.shape = .record b
      ∧ FieldsGained a.fields b.fields ∧ Judged a.fields b.fields use x y ∧ c = x.1.typeId
      ∧ e = y.1.typeId := by
  cases h with
  | record shape gained =>
      cases part.of_record shape rfl with
      | field judged => exact .inr ⟨_, _, _, _, shape, rfl, gained, judged, rfl, rfl⟩
      | base _ mem => exact .inl (congrArg Base.typeId (eq_of_mem_zip_self mem))
      | argument _ mem => exact .inl (eq_of_mem_zip_self mem)
  | other kind =>
      refine .inl (part.eq_of_self fun layout shape => ?_)
      exact absurd (TypeDecl.kind_of_shape shape) kind

theorem TypeDecl.Gains.fields {s t : TypeDecl} {x y : RecordLayout} (h : s.Gains t)
    (hs : s.shape = .record x) (ht : t.shape = .record y) : FieldsGained x.fields y.fields := by
  cases h with
  | record shape gained =>
      cases hs.symm.trans shape
      cases ht
      exact gained
  | other kind => exact absurd (TypeDecl.kind_of_shape hs) kind

namespace Interface.Gains

variable {m m' : Interface} {policy : Policy} {a : String} {s t : TypeDecl}

theorem of_found (h : m.Gains m') (old : m.type? a = some s) (new : m'.type? a = some t) :
    s.Gains t :=
  h.types.of_found old new

theorem not_differsHere (h : m.Gains m') (a : String) :
    ¬ Scope.DiffersHere ⟨m, m', policy⟩ (a, a) := by
  intro differs
  cases differs with
  | unresolved _ out =>
      rw [compareUnresolved_self] at out
      cases out
  | types resolves differs => exact (h.of_found resolves.old resolves.new).not_differs differs

theorem eq_of_passes (h : m.Gains m') {q : String × String}
    (passes : Scope.Passes ⟨m, m', policy⟩ (a, a) q) : q.1 = q.2 := by
  obtain ⟨s, t, resolves, part⟩ := passes
  rcases (h.of_found resolves.old resolves.new).part_cases part with
    same | ⟨_, _, _, _, -, -, -, judged, -⟩
  · exact same
  · cases judged

theorem not_directlyDiffers (h : m.Gains m') {p : String × String} (same : p.1 = p.2) :
    ¬ Scope.DirectlyDiffers ⟨m, m', policy⟩ p := by
  intro differs
  induction differs with
  | @here p differs =>
      obtain ⟨a, b⟩ := p
      cases same
      exact h.not_differsHere a differs
  | @through p q passes _ ih =>
      obtain ⟨a, b⟩ := p
      cases same
      exact ih (h.eq_of_passes passes)

theorem records_stay (h : m.Gains m') : ∀ s ∈ m.types.items, ∀ a, s.shape = .record a →
    ∃ t b, m'.type? s.id = some t ∧ t.shape = .record b := by
  intro s mem a shape
  obtain ⟨t, found, gains⟩ := h.types.types s mem
  cases gains with
  | record => exact ⟨_, _, found, rfl⟩
  | other kind => exact absurd (TypeDecl.kind_of_shape shape) kind

theorem trialSilent_of_alike (h : m.Gains m') {use : Use} {p q : Field}
    (types : q.typeId = p.typeId)
    (alike : use = .reported → p.offset = q.offset ∧ p.access.downgradedTo q.access = false) :
    Scope.TrialSilent ⟨m, m', policy⟩ use p q := by
  refine ⟨.inl types, fun counts => ?_⟩
  obtain ⟨offset, access⟩ := alike counts
  rintro (offset' | access' | differ)
  · exact offset' offset
  · rw [access] at access'
    cases access'
  · exact h.not_directlyDiffers types.symm differ

/-- In an interface with self-matching field lists it is the added fields whose trials have to be
silent. -/
theorem trialsSilent_of_tried (h : m.Gains m') (matching : m.SelfMatching)
    (silent : ∀ olds news, m.HasFieldLists m' olds news → ∀ use p q, Tried olds news use p q →
      Scope.TrialSilent ⟨m, m', policy⟩ use p q) :
    Scope.TrialsSilent ⟨m, m', policy⟩ := by
  intro olds news lists use x y judged
  obtain @⟨a, s, t, b, c, old, new, hs, ht⟩ := id lists
  have self := matching s (Catalog.mem_of_find? old) b hs
  rcases ((h.of_found old new).fields hs ht).tried_of_judged self judged with
    tried | ⟨types, alike⟩
  · exact silent _ _ lists _ _ _ tried
  · exact h.trialSilent_of_alike types alike

theorem not_layoutBreaks (h : m.Gains m') (gains : s.Gains t) {x y : RecordLayout}
    (hs : s.shape = .record x) (ht : t.shape = .record y)
    (alike : ∀ {u v}, Judged x.fields y.fields .reported u v →
      ¬ Scope.FieldsDiffer ⟨m, m', policy⟩ u.1 v.1) :
    ¬ Scope.LayoutBreaks ⟨m, m', policy⟩ s t x y := by
  have gained := gains.fields hs ht
  cases gains with
  | other kind => exact absurd (TypeDecl.kind_of_shape hs) kind
  | record shape =>
      cases hs.symm.trans shape
      cases ht
      rintro (size | alignment | vtable | access | bases | ⟨p, q, changed⟩ | ⟨p, removed⟩)
      · exact size rfl
      · exact alignment rfl
      · exact vtable rfl
      · rw [Access.downgradedTo_self] at access
        cases access
      · rcases bases with length | ⟨x, y, mem, differ⟩
        · exact length rfl
        · cases eq_of_mem_zip_self mem
          rcases differ with access | differ
          · exact access rfl
          · exact h.not_directlyDiffers rfl differ
      · obtain ⟨u, v, judged, rfl, rfl⟩ := changed.judged
        obtain ⟨-, -, -, -, differ⟩ := changed
        exact alike judged differ
      · -- the field is still there, so that something comes first at its offset
        obtain ⟨v, hv⟩ := exists_firstAt? (gained.mem_new removed.1)
        have first := find?_of_firstAt? hv
        obtain ⟨u, v, judged, rfl, same⟩ := removed.judged first
        exact alike judged (same ▸ removed.2.2 _ first)

theorem not_enumsDiffer (h : m.Gains m') (old : m.type? a = some s) (gains : s.Gains t)
    {x y : EnumLayout} (hs : s.shape = .enum x) (ht : t.shape = .enum y) :
    ¬ Scope.EnumsDiffer ⟨m, m', policy⟩ x y := by
  cases gains with
  | record shape => cases hs.symm.trans shape
  | other =>
      cases hs.symm.trans ht
      rintro (⟨name, values⟩ | storage)
      · exact values rfl
      · have kept := (h.types.mono TypeDecl.Gains.remains).typeName_eq (mem_mentions_of_enum old hs)
        exact storage kept.symm

theorem not_reports (h : m.Gains m') (silent : Scope.TrialsSilent ⟨m, m', policy⟩) (a : String) :
    ¬ Scope.Reports ⟨m, m', policy⟩ (a, a) := by
  intro reports
  cases reports with
  | record resolves hs ht _ breaks =>
      have lists := Interface.HasFieldLists.mk resolves.old resolves.new hs ht
      refine h.not_layoutBreaks (h.of_found resolves.old resolves.new) hs ht ?_ breaks
      exact fun judged => (silent _ _ lists .reported _ _ judged).2 rfl
  | enum resolves hs ht _ differ =>
      exact h.not_enumsDiffer resolves.old (h.of_found resolves.old resolves.new) hs ht differ

/-- A walk meets types and what they have become, and pairs that are silent, and finds nothing. -/
theorem bounds (h : m.Gains m') (silent : Scope.TrialsSilent ⟨m, m', policy⟩) :
    Scope.Bounds ⟨m, m', policy⟩ (fun p => p.1 = p.2 ∨ Scope.Silent ⟨m, m', policy⟩ p)
      (Scope.DirectlyDiffers ⟨m, m', policy⟩) (fun _ => False) where
  parts {p q} within opens := by
    rcases within with same | quiet
    · obtain ⟨a, b⟩ := p
      obtain ⟨use, s, t, resolves, part, -⟩ := opens
      cases same
      rcases (h.of_found resolves.old resolves.new).part_cases part with
        same | ⟨x, y, u, v, hs, ht, -, judged, old, new⟩
      · exact .inl same
      · obtain ⟨types, -⟩ := silent _ _ (.mk resolves.old resolves.new hs ht) _ _ _ judged
        rw [← old, ← new] at types
        exact types.imp_left Eq.symm
    · exact .inr (quiet.opens opens)
  answer _ look direct := (Scope.bounds_differ _).answer trivial look direct
  reported {a b _ _ _} within look direct reported := by
    have reports := look.reports direct reported
    rcases within with same | quiet
    · cases same
      exact h.not_reports silent a reports
    · exact quiet _ .refl reports

/-- Where the trials are silent more fields are not found. -/
theorem findings_eq_nil (h : m.Gains m') (silent : Scope.TrialsSilent ⟨m, m', policy⟩) :
    (compare m m' policy).findings = [] := by
  have exported {e : Entry} (mem : e ∈ Scope.exports ⟨m, m', policy⟩) : e.Agrees m.Diagonal := by
    refine Scope.exports_agree (fun f mem => ?_) (fun g mem => ?_) mem
    · rw [h.kept]
      exact ⟨f.sourceFile, Catalog.find?_key mem⟩
    · rw [h.kept]
      exact ⟨g.sourceFile, Catalog.find?_key mem⟩
  refine List.eq_nil_iff_forall_not_mem.mpr ?_
  refine (h.bounds silent).of_walk (fun e mem => ?_) fun e mem => ?_
  · exact (exported mem).within (fun diagonal => .inl diagonal.1)
      fun diagonal => h.not_directlyDiffers diagonal.1
  · exact ((h.types.mono TypeDecl.Gains.remains).userTypes_agree mem).within
      (fun diagonal => .inl diagonal.1) fun diagonal => h.not_directlyDiffers diagonal.1

end Interface.Gains

/-! ## Additions that do not match

A clash is an interface made for two field lists: a record with the one before, with the other
after, and blank records of different sizes for whatever ids the fields have. -/

theorem clash_gains {key id a b : String} {olds news : List Field}
    (gained : FieldsGained olds news) :
    (clash key id a b olds).Gains (clash key id a b news) where
  kept := rfl
  types := by
    refine ⟨fun s mem => ?_, fun t mem missing => ?_⟩
    · have found := Catalog.find?_key mem
      rcases clash_type?_cases key id a b s.id with whole | ⟨c, size, blank⟩ | none
      · cases (whole olds).symm.trans found
        exact ⟨_, whole news, @TypeDecl.Gains.record (holding id key olds) _ news rfl gained⟩
      · cases (blank olds).symm.trans found
        exact ⟨_, blank news, @TypeDecl.Gains.record (AbiCompat.blank c key size) _ [] rfl rfl⟩
      · cases (none olds).symm.trans found
    · have found := Catalog.find?_key mem
      rcases clash_type?_cases key id a b t.id with whole | ⟨c, size, blank⟩ | none
      · cases (whole olds).symm.trans missing
      · cases (blank olds).symm.trans missing
      · cases (none news).symm.trans found

/-- Where fields are tried out on each other that are of different types, or a trial counts and
the access is less, the additions are found between some interfaces with no other field lists. -/
theorem exists_found_of_not_additionsMatch {olds news : List Field}
    (gained : FieldsGained olds news) (unmatched : ¬ AdditionsMatch olds news) (policy : Policy) :
    ∃ n n' : Interface, n.Gains n' ∧ (∀ xs ys, n.HasFieldLists n' xs ys →
        xs = [] ∧ ys = [] ∨ xs = olds ∧ ys = news) ∧ (compare n n' policy).findings ≠ [] := by
  obtain ⟨use, p, q, tried, unlike⟩ : ∃ use p q, Tried olds news use p q ∧
      (q.typeId ≠ p.typeId ∨ use = .reported ∧ p.access.downgradedTo q.access = true) := by
    simpa [AdditionsMatch, imp_iff_not_or, not_and_or] using unmatched
  obtain ⟨x, y, judged, rfl, rfl⟩ := tried.judged
  -- the policy may ignore any key but not all of them
  obtain ⟨key, kept⟩ := exists_fresh policy.ignored.keys
  obtain ⟨id, fresh⟩ := exists_fresh [x.1.typeId, y.1.typeId]
  rw [List.mem_cons, List.mem_singleton, not_or] at fresh
  obtain ⟨f, found, -⟩ := clash_breaks_of_judged judged unlike fresh.1 fresh.2
    (Catalog.contains_eq_false kept)
  exact ⟨_, _, clash_gains gained, fun xs ys => hasFieldLists_clash, List.ne_nil_of_mem found⟩

theorem Interface.AdditionsMatch.trialsSilent {m m' : Interface} {policy : Policy}
    (additions : m.AdditionsMatch m') (gains : m.Gains m') (matching : m.SelfMatching) :
    Scope.TrialsSilent ⟨m, m', policy⟩ := by
  refine gains.trialsSilent_of_tried matching fun olds news lists use p q tried => ?_
  obtain ⟨types, access⟩ := additions olds news lists use p q tried
  refine gains.trialSilent_of_alike types fun counts => ⟨?_, access counts⟩
  cases tried with
  | added => cases counts
  | displaced _ _ first => exact (offset_of_find? first).symm

/-- More fields are not found where all trials are silent.  As far as field lists can say, in an
interface that is unchanged against itself, all that is safe is to try an added field out on one
of its own type: without that, more fields are found between some interfaces with no other field
lists. -/
theorem findings_of_gains {m m' : Interface} (gains : m.Gains m') (policy : Policy) :
    (Scope.TrialsSilent ⟨m, m', policy⟩ → (compare m m' policy).findings = [])
      ∧ (m.SelfMatching → (m.AdditionsMatch m' ↔ ∀ n n' : Interface, n.Gains n' →
        n.FieldListsFrom n' m m' → (compare n n' policy).findings = [])) := by
  refine ⟨gains.findings_eq_nil, fun matching => ⟨?_, ?_⟩⟩
  · intro additions n n' gains' lists
    have additions' : n.AdditionsMatch n' := by
      intro olds news here
      rcases lists olds news here with ⟨rfl, rfl⟩ | there
      · rintro use p q (⟨mem, -, -⟩ | ⟨mem, -, -, -⟩)
        · exact absurd mem List.not_mem_nil
        · exact absurd mem List.not_mem_nil
      · exact additions olds news there
    have matching' := matching.of_fieldLists gains'.records_stay lists
    exact gains'.findings_eq_nil (additions'.trialsSilent gains' matching')
  · intro unfound olds news fields
    by_contra unmatched
    have gained : FieldsGained olds news := by
      obtain ⟨old, new, hs, ht⟩ := fields
      exact (gains.of_found old new).fields hs ht
    obtain ⟨n, n', gains', from_lists, found⟩ :=
      exists_found_of_not_additionsMatch gained unmatched policy
    refine found (unfound n n' gains' fun xs ys here => ?_)
    rcases from_lists xs ys here with none | ⟨rfl, rfl⟩
    · exact .inl none
    · exact .inr fields

/-! ## One more member of a union

A `long` is tried out on an `int`, and the two are different and no more.  Two records that have no
names to tell them apart are compared member by member. -/

/-- A union of these fields. -/
def memberUnion (fields : List Field) : TypeDecl :=
  ⟨"u", "u", "", "u", "", 8, 8, .record ⟨fields, [], [], .unionRecord, false, [], .pub⟩⟩

/-- A global variable of a union of these fields, and these types besides. -/
def memberUnionVariable (types : List TypeDecl) (fields : List Field) : Interface :=
  { Interface.empty with
    types := .ofList (memberUnion fields :: types)
    globals := .ofList [⟨"g", "", "g", "u", .pub⟩] }

/-- An `int` in a union. -/
def intMember : Interface := memberUnionVariable [intDecl, longDecl] [⟨"x", "i", 0, .pub⟩]

/-- An `int` and a `long` in a union. -/
def longMember : Interface :=
  memberUnionVariable [intDecl, longDecl] [⟨"x", "i", 0, .pub⟩, ⟨"y", "l", 0, .pub⟩]

theorem memberUnion_gains {olds news : List Field} (gained : FieldsGained olds news) :
    (memberUnion olds).Gains (memberUnion news) :=
  @TypeDecl.Gains.record (memberUnion olds) _ news rfl gained

theorem mem_intMember {t : TypeDecl} (mem : t ∈ intMember.types.items) :
    t = memberUnion [⟨"x", "i", 0, .pub⟩] ∨ t = intDecl ∨ t = longDecl := by
  have listed := Catalog.mem_of_mem_ofList mem
  simpa only [List.mem_cons, List.not_mem_nil, or_false] using listed

theorem longMember_gains : intMember.Gains longMember where
  kept := rfl
  types := by
    refine ⟨fun s mem => ?_, by decide⟩
    rcases mem_intMember mem with rfl | rfl | rfl
    · exact ⟨_, rfl, memberUnion_gains (by decide)⟩
    · exact ⟨_, rfl, .other nofun⟩
    · exact ⟨_, rfl, .other nofun⟩

theorem intMember_selfMatching : intMember.SelfMatching := by
  intro t mem layout shape
  rcases mem_intMember mem with rfl | rfl | rfl
  · cases shape
    simp [SelfMatching]
  · cases shape
  · cases shape

theorem longMember_silent : Scope.TrialsSilent ⟨intMember, longMember, .plain⟩ := by
  refine longMember_gains.trialsSilent_of_tried intMember_selfMatching ?_
  intro olds news lists use p q tried
  obtain ⟨rfl, rfl⟩ : olds = [⟨"x", "i", 0, .pub⟩]
      ∧ news = [⟨"x", "i", 0, .pub⟩, ⟨"y", "l", 0, .pub⟩] := by
    obtain ⟨old, new, hs, ht⟩ := lists
    rcases mem_intMember (Catalog.mem_of_find? old) with rfl | rfl | rfl
    · cases Catalog.key_of_find? old
      cases hs
      cases new
      cases ht
      exact ⟨rfl, rfl⟩
    · cases hs
    · cases hs
  cases tried with
  | @added p q mem new first =>
      have other : q = ⟨"y", "l", 0, .pub⟩ := by
        rcases List.mem_cons.mp mem with rfl | mem
        · exact absurd rfl (new.2 _ List.mem_cons_self)
        · exact List.mem_singleton.mp mem
      cases other
      cases first
      have differs : intDecl.Differs longDecl := .builtin rfl rfl (.inl (by decide))
      exact ⟨.inr (.of_differs ⟨rfl, rfl, rfl⟩ differs nofun), nofun⟩
  | displaced mem unnamed =>
      cases List.mem_singleton.mp mem
      exact absurd unnamed (by decide)

theorem longMember_not_match : ¬ intMember.AdditionsMatch longMember := by
  intro additions
  obtain ⟨types, -⟩ :=
    additions _ _ (@Interface.HasFieldLists.mk _ _ "u" _ _ _ _ rfl rfl rfl rfl) .dropped
    ⟨"x", "i", 0, .pub⟩ ⟨"y", "l", 0, .pub⟩ (.added (by decide) (by decide) rfl)
  exact absurd types (by decide)

/-- A union of an `int` may have a `long` besides, although for other types of these ids it may
not. -/
theorem longMember_not_found : intMember.Gains longMember
    ∧ Scope.TrialsSilent ⟨intMember, longMember, .plain⟩
    ∧ (compare intMember longMember .plain).findings = []
    ∧ intMember.SelfMatching ∧ ¬ ∀ n n' : Interface, n.Gains n' →
      n.FieldListsFrom n' intMember longMember → (compare n n' .plain).findings = [] := by
  obtain ⟨silent, lists⟩ := findings_of_gains longMember_gains .plain
  exact ⟨longMember_gains, longMember_silent, silent longMember_silent, intMember_selfMatching,
    fun unfound => longMember_not_match ((lists intMember_selfMatching).mpr unfound)⟩

/-- A record without a name, of the given size. -/
def unnamedDecl (id : String) (size : UInt64) : TypeDecl :=
  ⟨id, id, "", "", "", size, 4, .record ⟨[], [], [], .structRecord, true, [], .pub⟩⟩

/-- A record without a name in a union. -/
def unnamedMember : Interface := memberUnionVariable [unnamedDecl "a" 4] [⟨"x", "a", 0, .pub⟩]

/-- Two records without a name in a union, of which the second is new. -/
def unnamedMembers : Interface :=
  memberUnionVariable [unnamedDecl "a" 4, unnamedDecl "b" 8]
    [⟨"x", "a", 0, .pub⟩, ⟨"y", "b", 0, .pub⟩]

theorem unnamedMembers_gains : unnamedMember.Gains unnamedMembers where
  kept := rfl
  types := by
    refine ⟨fun s mem => ?_, by decide⟩
    have listed := Catalog.mem_of_mem_ofList mem
    simp only [List.mem_cons, List.not_mem_nil, or_false] at listed
    rcases listed with rfl | rfl
    · exact ⟨_, rfl, memberUnion_gains (by decide)⟩
    · exact ⟨_, rfl, @TypeDecl.Gains.record (unnamedDecl "a" 4) _ [] rfl rfl⟩

/-- The records have no names to tell them apart, and when the new member is tried out on the old
one they are found to be of different sizes. -/
theorem found_though_gained : ¬ ∀ (m m' : Interface) (policy : Policy), m.Gains m' →
    (compare m m policy).findings = [] → (compare m m' policy).findings = [] := by
  intro h
  have findings := h unnamedMember unnamedMembers .plain unnamedMembers_gains (by decide)
  revert findings
  decide

end AbiCompat
