/-
# Types that evolve

What the author of a library may do to a type without breaking callers: give a field another name,
put a field where there was none, let more callers use a record or a field, and put a value into an
enumeration.  Everything that a caller relies on stays as it is.

The relation is stated on the declarations (`FieldsEvolve`, `EnumLayout.Evolves`,
`TypeDecl.Evolves`) and not through the comparison.  What is proved of it here is what a walk needs
to know of one pair of types:

* no type differs by itself from what has become of it;
* the parts of a type and of what has become of it are the same ids, so that a walk over ids meets
  pairs of one id only;
* the records agree;
* the change of an enumeration has nothing that is removed or different.

The first condition on field lists, that offsets and names tell fields apart, is not idle.  A union
whose members share an offset may not have its members renamed freely; how far that goes is treated
in `FieldNames`, and the lemmas here that end in `of_judged` are stated for both.
-/
import AbiCompat.Proofs.Agreement

namespace AbiCompat

/-! ## Field lists

Every old field has become a new one.  Every new field comes from an old one, with the same name or
a new one, or it is new and stands where there was none.  So only a field and what it has become
are held against each other. -/

/-- Fields can be told apart by their offsets, and those with a name by their names. -/
def DistinctFields (fields : List Field) : Prop :=
  fields.Pairwise fun p q => p.offset ≠ q.offset ∧ (p.name ≠ "" → p.name ≠ q.name)

/-- A field and what it may become. -/
structure Field.Becomes (p q : Field) : Prop where
  typeId : q.typeId = p.typeId
  offset : q.offset = p.offset
  access : p.access.downgradedTo q.access = false

/-- A field has a name, and none of the old fields has had it. -/
def Field.NewlyNamed (olds : List Field) (q : Field) : Prop :=
  q.name ≠ "" ∧ ∀ p ∈ olds, p.name ≠ q.name

/-- The new fields are the old ones in their order, some of them renamed, with more fields
between them at offsets that were free.  `olds` is the whole list of old fields. -/
inductive FieldsEvolve (olds : List Field) : List Field → List Field → Prop
  | nil : FieldsEvolve olds [] []
  | keep {p q : Field} {ps qs : List Field} : p.Becomes q → q.name = p.name →
      FieldsEvolve olds ps qs → FieldsEvolve olds (p :: ps) (q :: qs)
  | rename {p q : Field} {ps qs : List Field} : p.Becomes q → p.name ≠ "" → q.NewlyNamed olds →
      FieldsEvolve olds ps qs → FieldsEvolve olds (p :: ps) (q :: qs)
  | add {q : Field} {ps qs : List Field} : (∀ p ∈ olds, p.offset ≠ q.offset) →
      q.NewlyNamed olds → FieldsEvolve olds ps qs → FieldsEvolve olds ps (q :: qs)

namespace DistinctFields

variable {fields : List Field} {p q : Field}

theorem eq_of_offset (h : DistinctFields fields) (hp : p ∈ fields) (hq : q ∈ fields)
    (same : p.offset = q.offset) : p = q := by
  rcases pairwise_cases h hp hq with eq | apart | apart
  · exact eq
  · exact absurd same apart.1
  · exact absurd same.symm apart.1

theorem eq_of_name (h : DistinctFields fields) (hp : p ∈ fields) (hq : q ∈ fields)
    (named : p.name ≠ "") (same : p.name = q.name) : p = q := by
  rcases pairwise_cases h hp hq with eq | apart | apart
  · exact eq
  · exact absurd same (apart.2 named)
  · exact absurd same.symm (apart.2 (same ▸ named))

end DistinctFields

namespace FieldsEvolve

variable {olds ps qs news : List Field} {p q : Field}

theorem refl (olds ps : List Field) : FieldsEvolve olds ps ps := by
  induction ps with
  | nil => exact .nil
  | cons p ps ih => exact .keep ⟨rfl, rfl, Access.downgradedTo_self _⟩ rfl ih

theorem future (h : FieldsEvolve olds ps qs) (mem : p ∈ ps) : ∃ q ∈ qs, p.Becomes q := by
  induction h with
  | nil => exact absurd mem List.not_mem_nil
  | @keep _ q _ _ becomes _ _ ih =>
      rcases List.mem_cons.mp mem with rfl | mem
      · exact ⟨q, List.mem_cons_self, becomes⟩
      · obtain ⟨r, hr, later⟩ := ih mem
        exact ⟨r, List.mem_cons_of_mem _ hr, later⟩
  | @rename _ q _ _ becomes _ _ _ ih =>
      rcases List.mem_cons.mp mem with rfl | mem
      · exact ⟨q, List.mem_cons_self, becomes⟩
      · obtain ⟨r, hr, later⟩ := ih mem
        exact ⟨r, List.mem_cons_of_mem _ hr, later⟩
  | add _ _ _ ih =>
      obtain ⟨r, hr, later⟩ := ih mem
      exact ⟨r, List.mem_cons_of_mem _ hr, later⟩

theorem origin (h : FieldsEvolve olds ps qs) (mem : q ∈ qs) :
    (∃ p ∈ ps, p.Becomes q ∧ (q.name = p.name ∨ q.NewlyNamed olds))
      ∨ q.NewlyNamed olds ∧ ∀ p ∈ olds, p.offset ≠ q.offset := by
  induction h with
  | nil => exact absurd mem List.not_mem_nil
  | @keep p _ _ _ becomes name _ ih =>
      rcases List.mem_cons.mp mem with rfl | mem
      · exact .inl ⟨p, List.mem_cons_self, becomes, .inl name⟩
      · refine (ih mem).imp_left ?_
        rintro ⟨r, hr, from_old⟩
        exact ⟨r, List.mem_cons_of_mem _ hr, from_old⟩
  | @rename p _ _ _ becomes _ new _ ih =>
      rcases List.mem_cons.mp mem with rfl | mem
      · exact .inl ⟨p, List.mem_cons_self, becomes, .inr new⟩
      · refine (ih mem).imp_left ?_
        rintro ⟨r, hr, from_old⟩
        exact ⟨r, List.mem_cons_of_mem _ hr, from_old⟩
  | add free new _ ih =>
      rcases List.mem_cons.mp mem with rfl | mem
      · exact .inr ⟨new, free⟩
      · exact ih mem

theorem becomes_of_offset (h : FieldsEvolve olds olds news) (distinct : DistinctFields olds)
    (hp : p ∈ olds) (hq : q ∈ news) (same : q.offset = p.offset) : p.Becomes q := by
  rcases h.origin hq with ⟨r, hr, becomes, -⟩ | ⟨-, free⟩
  · have offset : r.offset = p.offset := becomes.offset.symm.trans same
    rw [← distinct.eq_of_offset hr hp offset]
    exact becomes
  · exact absurd same.symm (free p hp)

theorem becomes_of_name (h : FieldsEvolve olds olds news) (distinct : DistinctFields olds)
    (hp : p ∈ olds) (hq : q ∈ news) (named : p.name ≠ "") (same : q.name = p.name) :
    p.Becomes q := by
  -- so the new field was neither renamed nor added
  have known : ¬ q.NewlyNamed olds := fun new => new.2 p hp same.symm
  rcases h.origin hq with ⟨r, hr, becomes, name | new⟩ | ⟨new, -⟩
  · rw [distinct.eq_of_name hp hr named (same.symm.trans name)]
    exact becomes
  · exact absurd new known
  · exact absurd new known

/-- Only a field and what it has become are held against each other. -/
theorem becomes_of_judged (h : FieldsEvolve olds olds news) (distinct : DistinctFields olds)
    {use : Use} {x y : Located} (judged : Judged olds news use x y) : x.1.Becomes y.1 := by
  obtain ⟨hx, hy⟩ := judged.mem_located
  have hp := mem_of_mem_located hx
  have hq := mem_of_mem_located hy
  cases judged with
  | gone _ found => exact h.becomes_of_offset distinct hp hq (offset_of_firstAt? found)
  | new _ found => exact h.becomes_of_offset distinct hp hq (offset_of_firstAt? found).symm
  | namesakes common =>
      have same := Catalog.key_eq_of_mem_common common
      have named := name_ne_of_mem_namedFields (Catalog.mem_common.mp common).1
      exact h.becomes_of_name distinct hp hq named same

end FieldsEvolve

/-! ## Types -/

/-- A record whose fields evolve, and which no fewer callers may use. -/
structure RecordLayout.Evolves (a b : RecordLayout) : Prop where
  fields : FieldsEvolve a.fields a.fields b.fields
  access : a.access.downgradedTo b.access = false
  bases : b.bases = a.bases
  vtable : b.vtable = a.vtable
  kind : b.kind = a.kind
  isAnonymous : b.isAnonymous = a.isAnonymous
  templateArgs : b.templateArgs = a.templateArgs

/-- An enumeration with more values: without those of new names it is what it was. -/
structure EnumLayout.Evolves (a b : EnumLayout) : Prop where
  underlying : b.underlying = a.underlying
  access : b.access = a.access
  enumerators :
    b.enumerators.filter (fun x => x.name ∈ a.enumerators.map Enumerator.name) = a.enumerators

/-- Records and enumerations evolve, everything else stays. -/
inductive Shape.Evolves : Shape → Shape → Prop
  | same (x : Shape) : Evolves x x
  | record {a b : RecordLayout} : a.Evolves b → Evolves (.record a) (.record b)
  | enum {a b : EnumLayout} : a.Evolves b → Evolves (.enum a) (.enum b)

/-- A type and what may become of it.  Where it was found does not matter. -/
structure TypeDecl.Evolves (s t : TypeDecl) : Prop where
  id : t.id = s.id
  linkKey : t.linkKey = s.linkKey
  name : t.name = s.name
  target : t.target = s.target
  size : t.size = s.size
  alignment : t.alignment = s.alignment
  shape : s.shape.Evolves t.shape

theorem RecordLayout.Evolves.refl (a : RecordLayout) : a.Evolves a :=
  ⟨.refl _ _, Access.downgradedTo_self _, rfl, rfl, rfl, rfl, rfl⟩

theorem EnumLayout.Evolves.refl (a : EnumLayout) : a.Evolves a := by
  refine ⟨rfl, rfl, List.filter_eq_self.mpr ?_⟩
  intro x mem
  simpa using ⟨x, mem, rfl⟩

namespace Shape.Evolves

variable {x y : Shape}

theorem kind_eq (h : x.Evolves y) : y.kind = x.kind := by
  cases h <;> rfl

theorem of_record {a b : RecordLayout} (h : Evolves (.record a) (.record b)) : a.Evolves b := by
  cases h with
  | same => exact .refl a
  | record h => exact h

theorem of_enum {a b : EnumLayout} (h : Evolves (.enum a) (.enum b)) : a.Evolves b := by
  cases h with
  | same => exact .refl a
  | enum h => exact h

theorem eq_of_function {a b : Signature} (h : Evolves (.function a) (.function b)) : a = b := by
  cases h
  rfl

theorem eq_of_qualified {a b : Qualifiers} (h : Evolves (.qualified a) (.qualified b)) :
    a = b := by
  cases h
  rfl

theorem eq_of_builtin {a b : Builtin} (h : Evolves (.builtin a) (.builtin b)) : a = b := by
  cases h
  rfl

end Shape.Evolves

/-! ## Types that evolve agree -/

/-- The field lists of a record can be told apart by offsets and names. -/
def TypeDecl.DistinctFields (t : TypeDecl) : Prop :=
  ∀ layout, t.shape = .record layout → AbiCompat.DistinctFields layout.fields

section Types

variable {s t : TypeDecl} {use : Use} {a b : String}

theorem TypeDecl.Evolves.not_differs (h : s.Evolves t) : ¬ s.Differs t := by
  have shape := h.shape
  intro differs
  cases differs with
  | kind kind => exact kind shape.kind_eq.symm
  | builtin hs ht differ =>
      rw [hs, ht] at shape
      cases shape.eq_of_builtin
      simp [h.size, h.alignment] at differ
  | qualified hs ht differ =>
      rw [hs, ht] at shape
      exact differ shape.eq_of_qualified
  | array _ _ differ => simp [h.size, h.alignment] at differ
  | enum _ _ differ => exact differ h.linkKey.symm
  | record _ _ _ _ differ => exact differ h.linkKey.symm
  | function hs ht differ =>
      rw [hs, ht] at shape
      cases shape.eq_of_function
      exact Signature.not_differs_self _ differ

/-- Where fields that are held against each other have one type, all parts of a type and of what
has become of it are the same ids. -/
theorem TypeDecl.Evolves.eq_of_part_of_judged (h : s.Evolves t)
    (fields : ∀ {x y : RecordLayout}, s.shape = .record x → t.shape = .record y →
      ∀ {use p q}, Judged x.fields y.fields use p q → p.1.typeId = q.1.typeId)
    (part : s.Part t use a b) : a = b := by
  have shape := h.shape
  cases part with
  | target => exact h.target.symm
  | signature hs ht part =>
      rw [hs, ht] at shape
      cases shape.eq_of_function
      exact part.eq_of_self
  | layout hs ht part =>
      rw [hs, ht] at shape
      have evolves := shape.of_record
      cases part with
      | field judged => exact fields hs ht judged
      | base _ mem =>
          rw [evolves.bases] at mem
          rw [eq_of_mem_zip_self mem]
      | argument _ mem =>
          rw [evolves.templateArgs] at mem
          exact eq_of_mem_zip_self mem

theorem TypeDecl.Evolves.eq_of_part (h : s.Evolves t) (distinct : s.DistinctFields)
    (part : s.Part t use a b) : a = b := by
  refine h.eq_of_part_of_judged (fun {x y} hs ht {use p q} judged => ?_) part
  have shape := h.shape
  rw [hs, ht] at shape
  exact (shape.of_record.fields.becomes_of_judged (distinct _ hs) judged).typeId.symm

/-- Records that evolve agree where the fields that are held against each other do. -/
theorem TypeDecl.Evolves.recordsAgree_of_judged {x y : RecordLayout} (h : s.Evolves t)
    (hs : s.shape = .record x) (ht : t.shape = .record y)
    (fields : ∀ {p q}, Judged x.fields y.fields .reported p q →
      p.1.offset = q.1.offset ∧ p.1.access.downgradedTo q.1.access = false) :
    RecordsAgree s t x y := by
  have shape := h.shape
  rw [hs, ht] at shape
  have evolves := shape.of_record
  refine ⟨evolves.access, ?_, ?_, ?_, ?_, ?_, fields⟩
  · exact TypeDecl.sameRoom_eq_true_iff.mpr ⟨h.size.symm, h.alignment.symm⟩
  · rw [evolves.vtable]
    exact vtablesAgree_self _
  · rw [evolves.bases]
  · intro c e mem
    rw [evolves.bases] at mem
    rw [eq_of_mem_zip_self mem]
  · intro p lone
    obtain ⟨q, hq, becomes⟩ :=
      evolves.fields.future (mem_of_mem_located (mem_of_mem_oneSided lone))
    rw [← becomes.offset]
    exact exists_firstAt? hq

theorem TypeDecl.Evolves.recordsAgree {x y : RecordLayout} (h : s.Evolves t)
    (distinct : s.DistinctFields) (hs : s.shape = .record x) (ht : t.shape = .record y) :
    RecordsAgree s t x y := by
  refine h.recordsAgree_of_judged hs ht fun {p q} judged => ?_
  have shape := h.shape
  rw [hs, ht] at shape
  have becomes := shape.of_record.fields.becomes_of_judged (distinct _ hs) judged
  exact ⟨becomes.offset.symm, becomes.access⟩

end Types

/-! ## Enumerations that evolve

A name that the old enumeration has keeps its value. -/

theorem EnumLayout.Evolves.find?_byName {a b : EnumLayout} (h : a.Evolves b) {x : Enumerator}
    (mem : x ∈ a.enumerators) : b.byName.find? x.name = a.byName.find? x.name := by
  rw [byName, byName, Catalog.find?_ofList, Catalog.find?_ofList]
  conv => rhs; rw [← h.enumerators, ← List.filter_reverse, List.find?_filter]
  refine congrArg (fun p => b.enumerators.reverse.find? p) (funext fun y => ?_)
  by_cases same : y.name = x.name
  · have known : ∃ z ∈ a.enumerators, z.name = x.name := ⟨x, mem, rfl⟩
    simp [same, known]
  · simp [same]

/-- An enumeration that evolves has at most new values. -/
theorem EnumLayout.Evolves.not_isIncompatible {scope : Scope} {s t : TypeDecl} {a b : EnumLayout}
    (h : a.Evolves b)
    (storage : scope.new.typeName a.underlying = scope.old.typeName a.underlying) :
    (scope.enumChange s t a b).isIncompatible = false := by
  have kept {x : Enumerator} (mem : x ∈ a.byName.items) : b.byName.find? x.name = some x := by
    rw [h.find?_byName (Catalog.mem_of_mem_ofList mem), Catalog.find?_key mem]
  have removed : (scope.enumChange s t a b).removed = [] := by
    refine List.filter_eq_nil_iff.mpr ?_
    intro x mem
    simp [Catalog.contains, kept mem]
  have changed : (scope.enumChange s t a b).changed = [] := by
    refine List.filter_eq_nil_iff.mpr ?_
    rintro ⟨x, y⟩ mem
    obtain ⟨hx, hy⟩ := Catalog.mem_common.mp mem
    cases (kept hx).symm.trans hy
    simp
  have underlying : (scope.enumChange s t a b).underlying = none := by
    simp [Scope.enumChange, h.underlying, storage]
  rw [EnumChange.isIncompatible, removed, changed, underlying]
  rfl

end AbiCompat
