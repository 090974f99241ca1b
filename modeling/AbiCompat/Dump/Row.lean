/-
# Rows: the entities of an interface as entries of a dump

Each kind of entry has a reader into the library's own types and a writer back; what is written is
read back as the same entity.  An id that is not given is the linker set key; it is always written.

Rows are tuples in the order of the fields of a schema.  Names that stand for accesses, kinds and
bindings are numbers in them, the places of the names in the list of all.
-/
import AbiCompat.Dump.Schema
import AbiCompat.Interface.Basic

namespace AbiCompat.Dump

/-! ## Parts of types -/

def fieldOf : fieldSchema.El → Field := fun (name, typeId, offset, access, ()) =>
  ⟨name, typeId, offset, Access.ofPlace access⟩

def fieldRow (f : Field) : fieldSchema.El :=
  (f.name, f.typeId, f.offset, f.access.place, ())

def baseOf : baseSchema.El → Base := fun (typeId, isVirtual, access, ()) =>
  ⟨typeId, isVirtual, Access.ofPlace access⟩

def baseRow (b : Base) : baseSchema.El := (b.typeId, b.isVirtual, b.access.place, ())

def slotOf : slotSchema.El → Slot := fun (kind, value, name, isPure, ()) =>
  ⟨SlotKind.ofPlace kind, name, value, isPure⟩

def slotRow (s : Slot) : slotSchema.El := (s.kind.place, s.value, s.name, s.isPure, ())

def enumeratorOf : enumeratorSchema.El → Enumerator := fun (name, value, ()) => ⟨name, value⟩

def enumeratorRow (e : Enumerator) : enumeratorSchema.El := (e.name, e.value, ())

def paramOf : paramSchema.El → Param := fun (typeId, hasDefault, isThis, ()) =>
  ⟨typeId, hasDefault, isThis⟩

def paramRow (p : Param) : paramSchema.El := (p.typeId, p.hasDefault, p.isThis, ())

/-! ## Types -/

def recordOf : recordSchema.El → TypeDecl :=
  fun (linkKey, sourceFile, name, size, alignment, target, id, fields, bases, vtable, kind,
      isAnonymous, templateArgs, access, ()) =>
    { id := id.getD linkKey
      linkKey, sourceFile, name, target, size, alignment
      shape := .record
        { fields := fields.map fieldOf
          bases := bases.map baseOf
          vtable := vtable.map slotOf
          kind := RecordKind.ofPlace kind
          isAnonymous, templateArgs
          access := Access.ofPlace access } }

def recordRow (t : TypeDecl) (r : RecordLayout) : recordSchema.El :=
  (t.linkKey, t.sourceFile, t.name, t.size, t.alignment, t.target, some t.id,
    r.fields.map fieldRow, r.bases.map baseRow, r.vtable.map slotRow, r.kind.place,
    r.isAnonymous, r.templateArgs, r.access.place, ())

def enumOf : enumSchema.El → TypeDecl :=
  fun (linkKey, sourceFile, name, size, alignment, target, id, underlying, enumerators,
      access, ()) =>
    { id := id.getD linkKey
      linkKey, sourceFile, name, target, size, alignment
      shape := .enum
        { underlying
          enumerators := enumerators.map enumeratorOf
          access := Access.ofPlace access } }

def enumRow (t : TypeDecl) (e : EnumLayout) : enumSchema.El :=
  (t.linkKey, t.sourceFile, t.name, t.size, t.alignment, t.target, some t.id,
    e.underlying, e.enumerators.map enumeratorRow, e.access.place, ())

/-- The type of an entry that has no data of its own. -/
def referenceOf (shape : Shape) : referenceSchema.El → TypeDecl :=
  fun (linkKey, sourceFile, name, size, alignment, target, id, ()) =>
    { id := id.getD linkKey
      linkKey, sourceFile, name, target, size, alignment, shape }

def referenceRow (t : TypeDecl) : referenceSchema.El :=
  (t.linkKey, t.sourceFile, t.name, t.size, t.alignment, t.target, some t.id, ())

def builtinOf : builtinSchema.El → TypeDecl :=
  fun (linkKey, sourceFile, name, size, alignment, target, id, isUnsigned, isIntegral, ()) =>
    { id := id.getD linkKey
      linkKey, sourceFile, name, target, size, alignment
      shape := .builtin { isUnsigned, isIntegral } }

def builtinRow (t : TypeDecl) (b : Builtin) : builtinSchema.El :=
  (t.linkKey, t.sourceFile, t.name, t.size, t.alignment, t.target, some t.id,
    b.isUnsigned, b.isIntegral, ())

def qualifiedOf : qualifiedSchema.El → TypeDecl :=
  fun (linkKey, sourceFile, name, size, alignment, target, id, isConst, isVolatile,
      isRestricted, ()) =>
    { id := id.getD linkKey
      linkKey, sourceFile, name, target, size, alignment
      shape := .qualified { isConst, isVolatile, isRestricted } }

def qualifiedRow (t : TypeDecl) (q : Qualifiers) : qualifiedSchema.El :=
  (t.linkKey, t.sourceFile, t.name, t.size, t.alignment, t.target, some t.id,
    q.isConst, q.isVolatile, q.isRestricted, ())

def functionTypeOf : functionTypeSchema.El → TypeDecl :=
  fun (linkKey, sourceFile, name, size, alignment, target, id, returns, params,
      templateArgs, ()) =>
    { id := id.getD linkKey
      linkKey, sourceFile, name, target, size, alignment
      shape := .function { returns, params := params.map paramOf, templateArgs } }

def functionTypeRow (t : TypeDecl) (s : Signature) : functionTypeSchema.El :=
  (t.linkKey, t.sourceFile, t.name, t.size, t.alignment, t.target, some t.id,
    s.returns, s.params.map paramRow, s.templateArgs, ())

/-! ## Exported names -/

def functionOf : functionSchema.El → FunctionDecl :=
  fun (name, linkKey, sourceFile, returns, params, templateArgs, access, ()) =>
    { linkKey, sourceFile, name
      signature := { returns, params := params.map paramOf, templateArgs }
      access := Access.ofPlace access }

def functionRow (f : FunctionDecl) : functionSchema.El :=
  (f.name, f.linkKey, f.sourceFile, f.signature.returns, f.signature.params.map paramRow,
    f.signature.templateArgs, f.access.place, ())

def globalOf : globalSchema.El → GlobalDecl :=
  fun (name, linkKey, sourceFile, typeId, access, ()) =>
    { linkKey, sourceFile, name, typeId, access := Access.ofPlace access }

def globalRow (g : GlobalDecl) : globalSchema.El :=
  (g.name, g.linkKey, g.sourceFile, g.typeId, g.access.place, ())

def symbolOf : symbolSchema.El → Symbol := fun (name, binding, ()) =>
  ⟨name, Binding.ofPlace binding⟩

def symbolRow (s : Symbol) : symbolSchema.El := (s.name, s.binding.place, ())

end AbiCompat.Dump
