/-
# Other ids for the same declarations

Types refer to each other by ids.  A renaming gives the ids of two versions other spellings and
leaves all else as it is: linker set keys, names, sizes, and the order of every list.  Whatever is
looked up by name or by offset is found in the same places afterwards.

This module says what a renaming does to declarations and to findings, and has for each of them
what stays: kind, key, the fields by name and by place.  What a renaming does to comparisons is in
the modules after it.

A renaming is a pair of functions on texts, one for each version, and neither is asked to be
injective here.  The renaming that changes nothing is among them; it is what makes the theory of
renamings one of interfaces that have the same types where it counts.
-/
import AbiCompat.Compare.Finding
import AbiCompat.Proofs.FieldLists

namespace AbiCompat

/-- What becomes of the ids of the old version, and of those of the new one. -/
structure Renaming where
  old : String → String
  new : String → String

/-- The renaming that changes nothing. -/
def Renaming.none : Renaming := ⟨id, id⟩

/-- What becomes of the ids of the version that has what came or went. -/
def Renaming.holder (r : Renaming) : Direction → String → String
  | .removed => r.old
  | .added => r.new

/-! ## Declarations -/

section Declarations

variable (ρ : String → String)

def Field.rename (p : Field) : Field := { p with typeId := ρ p.typeId }

def Base.rename (b : Base) : Base := { b with typeId := ρ b.typeId }

def Param.rename (p : Param) : Param := { p with typeId := ρ p.typeId }

def Signature.rename (s : Signature) : Signature where
  returns := ρ s.returns
  params := s.params.map (Param.rename ρ)
  templateArgs := s.templateArgs.map ρ

def RecordLayout.rename (a : RecordLayout) : RecordLayout :=
  { a with
    fields := a.fields.map (Field.rename ρ)
    bases := a.bases.map (Base.rename ρ)
    templateArgs := a.templateArgs.map ρ }

def EnumLayout.rename (a : EnumLayout) : EnumLayout := { a with underlying := ρ a.underlying }

def Shape.rename : Shape → Shape
  | record a => .record (a.rename ρ)
  | enum a => .enum (a.rename ρ)
  | function s => .function (s.rename ρ)
  | pointer => .pointer
  | lvalueReference => .lvalueReference
  | rvalueReference => .rvalueReference
  | qualified q => .qualified q
  | array => .array
  | builtin b => .builtin b

def TypeDecl.rename (t : TypeDecl) : TypeDecl :=
  { t with id := ρ t.id, target := ρ t.target, shape := t.shape.rename ρ }

def FunctionDecl.rename (f : FunctionDecl) : FunctionDecl :=
  { f with signature := f.signature.rename ρ }

def GlobalDecl.rename (g : GlobalDecl) : GlobalDecl := { g with typeId := ρ g.typeId }

end Declarations

/-! ## Findings -/

section Findings

variable (r : Renaming)

def RecordChange.rename (c : RecordChange) : RecordChange :=
  { c with
    old := c.old.rename r.old
    new := c.new.rename r.new
    oldLayout := c.oldLayout.rename r.old
    newLayout := c.newLayout.rename r.new
    fieldsChanged := c.fieldsChanged.map (Prod.map (Field.rename r.old) (Field.rename r.new))
    fieldsRemoved := c.fieldsRemoved.map (Field.rename r.old)
    fieldsAdded := c.fieldsAdded.map (Field.rename r.new) }

/-- Enumerators have no ids. -/
def EnumChange.rename (c : EnumChange) : EnumChange :=
  { c with old := c.old.rename r.old, new := c.new.rename r.new }

def Change.rename : Change → Change
  | record c => .record (c.rename r)
  | enum c => .enum (c.rename r)
  | function f g => .function (f.rename r.old) (g.rename r.new)
  | global f g => .global (f.rename r.old) (g.rename r.new)

/-- The path of a finding is made of names, which stay. -/
def Finding.rename (f : Finding) : Finding := { f with change := f.change.rename r }

def LoneEntity.rename (ρ : String → String) : LoneEntity → LoneEntity
  | function f => .function (f.rename ρ)
  | global g => .global (g.rename ρ)
  | record t a => .record (t.rename ρ) (a.rename ρ)
  | enum t a => .enum (t.rename ρ) (a.rename ρ)

def LoneChange.rename (c : LoneChange) : LoneChange :=
  { c with entity := c.entity.rename (r.holder c.direction) }

end Findings

/-! ## What a renaming leaves alone -/

section Unchanged

variable {ρ : String → String}

@[simp] theorem Shape.kind_rename (x : Shape) : (x.rename ρ).kind = x.kind := by
  cases x <;> rfl

@[simp] theorem TypeDecl.kind_rename (t : TypeDecl) : (t.rename ρ).kind = t.kind :=
  t.shape.kind_rename

@[simp] theorem TypeDecl.linkKey_rename (t : TypeDecl) : (t.rename ρ).linkKey = t.linkKey := rfl

@[simp] theorem FunctionDecl.linkKey_rename (f : FunctionDecl) :
    (f.rename ρ).linkKey = f.linkKey :=
  rfl

@[simp] theorem GlobalDecl.linkKey_rename (g : GlobalDecl) : (g.rename ρ).linkKey = g.linkKey :=
  rfl

theorem TypeDecl.shape_rename (t : TypeDecl) : (t.rename ρ).shape = t.shape.rename ρ := rfl

@[simp] theorem TypeDecl.isUserDefined_rename (t : TypeDecl) :
    (t.rename ρ).isUserDefined = t.isUserDefined := by
  unfold isUserDefined
  rw [shape_rename]
  cases t.shape <;> rfl

@[simp] theorem TypeDecl.record?_rename (t : TypeDecl) :
    (t.rename ρ).record? = t.record?.map (RecordLayout.rename ρ) := by
  unfold record?
  rw [shape_rename]
  cases t.shape <;> rfl

@[simp] theorem TypeDecl.enum?_rename (t : TypeDecl) :
    (t.rename ρ).enum? = t.enum?.map (EnumLayout.rename ρ) := by
  unfold enum?
  rw [shape_rename]
  cases t.shape <;> rfl

variable {r : Renaming}

@[simp] theorem Change.isIncompatible_rename (c : Change) :
    (c.rename r).isIncompatible = c.isIncompatible := by
  cases c <;> rfl

@[simp] theorem LoneEntity.reach_rename (e : LoneEntity) : (e.rename ρ).reach = e.reach := by
  cases e <;> rfl

end Unchanged

/-! ## The renaming that changes nothing -/

@[simp] theorem Field.rename_id : Field.rename id = id := rfl

@[simp] theorem Base.rename_id : Base.rename id = id := rfl

@[simp] theorem Param.rename_id : Param.rename id = id := rfl

@[simp] theorem Signature.rename_id (s : Signature) : s.rename id = s := by
  simp [Signature.rename]

@[simp] theorem RecordLayout.rename_id (a : RecordLayout) : a.rename id = a := by
  simp [RecordLayout.rename]

@[simp] theorem Shape.rename_id (x : Shape) : x.rename id = x := by
  cases x with
  | record a => rw [Shape.rename, a.rename_id]
  | function s => rw [Shape.rename, s.rename_id]
  | enum => rfl
  | pointer | lvalueReference | rvalueReference | qualified | array | builtin => rfl

@[simp] theorem typeDecl_rename_id : TypeDecl.rename id = id := by
  funext t
  simp [TypeDecl.rename]

@[simp] theorem FunctionDecl.rename_id : FunctionDecl.rename id = id := by
  funext f
  simp [FunctionDecl.rename]

@[simp] theorem GlobalDecl.rename_id : GlobalDecl.rename id = id := rfl

@[simp] theorem Change.rename_none (c : Change) : c.rename .none = c := by
  cases c with
  | record c => simp [Change.rename, RecordChange.rename, Renaming.none]
  | enum c => simp [Change.rename, EnumChange.rename, Renaming.none]
  | function f g => simp [Change.rename, Renaming.none]
  | global f g => rfl

@[simp] theorem Finding.rename_none (f : Finding) : f.rename .none = f := by
  rw [Finding.rename, Change.rename_none]

/-! ## Field lists -/

/-- A field under other ids stays in its place. -/
def Located.rename (ρ : String → String) : Located → Located := Prod.map (Field.rename ρ) id

@[simp] theorem Located.name_rename {ρ : String → String} (p : Located) :
    (Located.rename ρ p).name = p.name :=
  rfl

section Fields

variable {ρ σ : String → String}

theorem located_rename (fields : List Field) :
    located (fields.map (Field.rename ρ)) = (located fields).map (Located.rename ρ) :=
  List.zipIdx_map

theorem namedFields_rename (fields : List Field) :
    namedFields (fields.map (Field.rename ρ))
      = (namedFields fields).map (Located.rename ρ) Located.name_rename := by
  unfold namedFields
  rw [located_rename, List.filter_map]
  exact Catalog.ofList_map _

theorem firstAt?_rename (fields : List Field) (offset : UInt64) :
    firstAt? (fields.map (Field.rename ρ)) offset
      = (firstAt? fields offset).map (Located.rename ρ) := by
  unfold firstAt?
  rw [located_rename, List.find?_map]
  rfl

theorem oneSided_rename (fields others : List Field) :
    oneSided (fields.map (Field.rename ρ)) (others.map (Field.rename σ))
      = (oneSided fields others).map (Located.rename ρ) := by
  unfold oneSided
  rw [located_rename, namedFields_rename, List.filter_map]
  refine congrArg (List.map _) (List.filter_congr fun p _ => ?_)
  rw [Function.comp_apply, Catalog.contains_map]
  rfl

theorem common_rename (olds news : List Field) :
    (namedFields (olds.map (Field.rename ρ))).common (namedFields (news.map (Field.rename σ)))
      = ((namedFields olds).common (namedFields news)).map
        (Prod.map (Located.rename ρ) (Located.rename σ)) := by
  rw [namedFields_rename, namedFields_rename]
  exact Catalog.common_map _ _

end Fields

end AbiCompat
