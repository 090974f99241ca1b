/-
# Field lists by name and by offset

The comparison of records looks fields up in three ways: by name, by offset, and as those that the
other side has no namesake of.  The definitions do so on lists of fields with their places, since
the cache of answers is kept by places.  Each is described here on the plain list, so that
statements about records need not mention places:

    find?_namedFields   the field of a name is `fieldOf?`, the last one that has it
    firstAt?_map        the first field at an offset is `List.find?` on offsets
    mem_oneSided        a field is one-sided if it has no name, or a name that the other list lacks

Fields without a name are never namesakes, not even of each other.

Where names tell fields apart (`DistinctNames`) the field of a name is the one that has it, and the
rule that the last one counts is never needed.
-/
import AbiCompat.Compare.Record
import AbiCompat.Proofs.Catalog

namespace AbiCompat

/-! ## Places -/

theorem located_inj {fields : List Field} {p q : Located} (hp : p ∈ located fields)
    (hq : q ∈ located fields) (h : p.2 = q.2) : p = q := by
  obtain ⟨x, i⟩ := p
  obtain ⟨y, j⟩ := q
  have hx := List.mk_mem_zipIdx_iff_getElem?.mp hp
  have hy := List.mk_mem_zipIdx_iff_getElem?.mp hq
  cases h
  rw [hx] at hy
  cases hy
  rfl

theorem mem_of_mem_located {fields : List Field} {p : Located} (h : p ∈ located fields) :
    p.1 ∈ fields :=
  List.fst_mem_of_mem_zipIdx h

theorem exists_located {fields : List Field} {p : Field} (h : p ∈ fields) :
    ∃ x ∈ located fields, x.1 = p := by
  rw [← List.zipIdx_map_fst 0 fields] at h
  exact List.mem_map.mp h

theorem mem_of_mem_oneSided {fields others : List Field} {p : Located}
    (h : p ∈ oneSided fields others) : p ∈ located fields :=
  (List.mem_filter.mp h).1

theorem mem_of_firstAt? {fields : List Field} {offset : UInt64} {p : Located}
    (h : firstAt? fields offset = some p) : p ∈ located fields :=
  List.mem_of_find?_eq_some h

theorem mem_of_mem_namedFields {fields : List Field} {p : Located}
    (h : p ∈ (namedFields fields).items) : p ∈ located fields :=
  (List.mem_filter.mp (Catalog.mem_of_mem_ofList h)).1

theorem name_ne_of_mem_namedFields {fields : List Field} {p : Located}
    (h : p ∈ (namedFields fields).items) : p.1.name ≠ "" := by
  have kept := (List.mem_filter.mp (Catalog.mem_of_mem_ofList h)).2
  simpa using kept

/-! ## Names and offsets -/

/-- The field of a name; of several with one name the last counts. -/
def fieldOf? (fields : List Field) (name : String) : Option Field :=
  fields.reverse.find? fun p => p.name == name

theorem fieldOf?_eq_none {fields : List Field} {name : String} :
    fieldOf? fields name = none ↔ ∀ p ∈ fields, p.name ≠ name := by
  rw [fieldOf?, List.find?_eq_none]
  simp

/-- The names of a field list lead to the fields that `fieldOf?` gives. -/
theorem find?_namedFields (fields : List Field) {name : String} (named : name ≠ "") :
    ((namedFields fields).find? name).map (·.1) = fieldOf? fields name := by
  have keep : (fun p : Located => decide ((p.1.name != "") = true ∧ (p.name == name) = true))
      = (fun p : Field => p.name == name) ∘ Prod.fst := by
    funext p
    by_cases h : p.1.name = name
    · simp [Located.name, h, named]
    · simp [Located.name, h]
  have fields_eq : fields = (located fields).map Prod.fst := by
    rw [located, List.zipIdx_map_fst]
  rw [namedFields, Catalog.find?_ofList, ← List.filter_reverse, List.find?_filter]
  rw [keep, fieldOf?]
  conv => rhs; rw [fields_eq, ← List.map_reverse, List.find?_map]

theorem firstAt?_map (fields : List Field) (offset : UInt64) :
    (firstAt? fields offset).map (·.1) = fields.find? fun p => p.offset == offset := by
  have fields_eq : fields = (located fields).map Prod.fst := by
    rw [located, List.zipIdx_map_fst]
  rw [firstAt?]
  conv => rhs; rw [fields_eq, List.find?_map]
  rfl

theorem find?_of_firstAt? {fields : List Field} {offset : UInt64} {q : Located}
    (h : firstAt? fields offset = some q) :
    fields.find? (fun q => q.offset == offset) = some q.1 := by
  rw [← firstAt?_map, h]
  rfl

theorem offset_of_find? {fields : List Field} {offset : UInt64} {q : Field}
    (h : fields.find? (fun q => q.offset == offset) = some q) : q.offset = offset := by
  simpa using List.find?_some h

theorem offset_of_firstAt? {fields : List Field} {offset : UInt64} {q : Located}
    (h : firstAt? fields offset = some q) : q.1.offset = offset :=
  offset_of_find? (find?_of_firstAt? h)

theorem firstAt?_eq_none {fields : List Field} {offset : UInt64} :
    firstAt? fields offset = none ↔ ∀ p ∈ fields, p.offset ≠ offset := by
  rw [← Option.map_eq_none_iff, firstAt?_map, List.find?_eq_none]
  simp

theorem exists_firstAt? {fields : List Field} {p : Field} (h : p ∈ fields) :
    ∃ q, firstAt? fields p.offset = some q := by
  cases found : firstAt? fields p.offset with
  | none => exact absurd rfl (firstAt?_eq_none.mp found p h)
  | some q => exact ⟨q, rfl⟩

/-- The fields without a namesake are those that have no name, and those whose name the
other list lacks. -/
theorem mem_oneSided {fields others : List Field} {p : Located} :
    p ∈ oneSided fields others ↔
      p ∈ located fields ∧ (p.1.name = "" ∨ ∀ q ∈ others, q.name ≠ p.1.name) := by
  rw [oneSided, List.mem_filter, Bool.or_eq_true, beq_iff_eq, Bool.not_eq_true']
  refine and_congr_right ?_
  intro _
  by_cases named : p.1.name = ""
  · simp [named]
  · rw [← fieldOf?_eq_none, ← find?_namedFields others named, Catalog.contains]
    simp [named]

/-! ## Names that tell fields apart -/

theorem pairwise_cases {α : Type} {R : α → α → Prop} {xs : List α} (h : xs.Pairwise R) {x y : α}
    (hx : x ∈ xs) (hy : y ∈ xs) : x = y ∨ R x y ∨ R y x := by
  induction xs with
  | nil => exact absurd hx List.not_mem_nil
  | cons z xs ih =>
      obtain ⟨head, tail⟩ := List.pairwise_cons.mp h
      rcases List.mem_cons.mp hx with rfl | laterX
      · rcases List.mem_cons.mp hy with rfl | laterY
        · exact .inl rfl
        · exact .inr (.inl (head y laterY))
      · rcases List.mem_cons.mp hy with rfl | laterY
        · exact .inr (.inr (head x laterX))
        · exact ih tail laterX laterY

/-- Fields that have a name can be told apart by it. -/
def DistinctNames (fields : List Field) : Prop :=
  fields.Pairwise fun p q => p.name ≠ "" → p.name ≠ q.name

theorem DistinctNames.eq_of_name {fields : List Field} {p q : Field} (h : DistinctNames fields)
    (hp : p ∈ fields) (hq : q ∈ fields) (named : p.name ≠ "") (same : p.name = q.name) :
    p = q := by
  rcases pairwise_cases h hp hq with eq | apart | apart
  · exact eq
  · exact absurd same (apart named)
  · exact absurd same.symm (apart (same ▸ named))

theorem DistinctNames.fieldOf?_eq {fields : List Field} {p : Field} (h : DistinctNames fields)
    (hp : p ∈ fields) (named : p.name ≠ "") : fieldOf? fields p.name = some p := by
  cases found : fieldOf? fields p.name with
  | none => exact absurd rfl (fieldOf?_eq_none.mp found p hp)
  | some q =>
      have same : q.name = p.name := by simpa using List.find?_some found
      have mem : q ∈ fields := List.mem_reverse.mp (List.mem_of_find?_eq_some found)
      rw [h.eq_of_name hp mem named same.symm]

end AbiCompat
