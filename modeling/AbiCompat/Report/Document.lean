/-
# Reports as documents

Each kind of entry has a row in its schema and a reader of rows; a row is read back as the entry it
was made of.

Reading asks nothing but that the text fits the schema.  The names of the verdict are any texts,
and nobody looks whether they go with its number and with the lists.
-/
import AbiCompat.Json.Read
import AbiCompat.Json.Write
import AbiCompat.Report.Basic
import AbiCompat.Report.Schema

namespace AbiCompat.Report

/-! ## Declarations -/

def paramRow (p : Param) : paramSchema.El := (p.typeId, p.hasDefault, p.isThis, ())

def paramOf : paramSchema.El → Param := fun (typeId, hasDefault, isThis, ()) =>
  ⟨typeId, hasDefault, isThis⟩

def functionRow (f : FunctionDecl) : functionSchema.El :=
  (f.name, f.linkKey, f.sourceFile, f.signature.returns, f.signature.params.map paramRow,
    f.signature.templateArgs, f.access.place, ())

def functionOf : functionSchema.El → FunctionDecl :=
  fun (name, linkKey, sourceFile, returns, params, templateArgs, access, ()) =>
    { linkKey, sourceFile, name
      signature := { returns, params := params.map paramOf, templateArgs }
      access := Access.ofPlace access }

def globalRow (g : GlobalDecl) : globalSchema.El :=
  (g.name, g.linkKey, g.sourceFile, g.typeId, g.access.place, ())

def globalOf : globalSchema.El → GlobalDecl :=
  fun (name, linkKey, sourceFile, typeId, access, ()) =>
    { linkKey, sourceFile, name, typeId, access := Access.ofPlace access }

def fieldRow (f : Field) : fieldSchema.El := (f.name, f.typeId, f.offset, f.access.place, ())

def fieldOf : fieldSchema.El → Field := fun (name, typeId, offset, access, ()) =>
  ⟨name, typeId, offset, Access.ofPlace access⟩

def baseRow (b : Base) : baseSchema.El := (b.typeId, b.isVirtual, b.access.place, ())

def baseOf : baseSchema.El → Base := fun (typeId, isVirtual, access, ()) =>
  ⟨typeId, isVirtual, Access.ofPlace access⟩

def slotRow (s : Slot) : slotSchema.El := (s.kind.place, s.name, s.value, s.isPure, ())

def slotOf : slotSchema.El → Slot := fun (kind, name, value, isPure, ()) =>
  ⟨SlotKind.ofPlace kind, name, value, isPure⟩

def enumeratorRow (e : Enumerator) : enumeratorSchema.El := (e.name, e.value, ())

def enumeratorOf : enumeratorSchema.El → Enumerator := fun (name, value, ()) => ⟨name, value⟩

def symbolRow (s : Symbol) : symbolSchema.El := (s.name, s.binding.place, ())

def symbolOf : symbolSchema.El → Symbol := fun (name, binding, ()) =>
  ⟨name, Binding.ofPlace binding⟩

/-! ## Whole types -/

def recordRow (r : RecordEntry) : recordSchema.El :=
  (r.name, r.linkKey, r.sourceFile, r.size, r.alignment, r.kind.place, r.access.place,
    r.fields.map fieldRow, r.bases.map baseRow, r.vtable.map slotRow, r.templateArgs, ())

def recordOf : recordSchema.El → RecordEntry :=
  fun (name, linkKey, sourceFile, size, alignment, kind, access, fields, bases, vtable,
      templateArgs, ()) =>
    { name, linkKey, sourceFile, size, alignment
      kind := RecordKind.ofPlace kind
      access := Access.ofPlace access
      fields := fields.map fieldOf
      bases := bases.map baseOf
      vtable := vtable.map slotOf
      templateArgs }

def enumRow (e : EnumEntry) : enumSchema.El :=
  (e.name, e.linkKey, e.sourceFile, e.size, e.alignment, e.underlying,
    e.enumerators.map enumeratorRow, e.access.place, ())

def enumOf : enumSchema.El → EnumEntry :=
  fun (name, linkKey, sourceFile, size, alignment, underlying, enumerators, access, ()) =>
    { name, linkKey, sourceFile, size, alignment, underlying
      enumerators := enumerators.map enumeratorOf
      access := Access.ofPlace access }

/-! ## Changes -/

def roomRow (c : RoomChange) : roomSchema.El :=
  (c.oldSize, c.newSize, c.oldAlignment, c.newAlignment, ())

def roomOf : roomSchema.El → RoomChange :=
  fun (oldSize, newSize, oldAlignment, newAlignment, ()) =>
    ⟨oldSize, newSize, oldAlignment, newAlignment⟩

def accessChangeRow (c : Access × Access) : accessChangeSchema.El := (c.1.place, c.2.place, ())

def accessChangeOf : accessChangeSchema.El → Access × Access := fun (a, b, ()) =>
  (Access.ofPlace a, Access.ofPlace b)

def vtableChangeRow (c : List Slot × List Slot) : vtableChangeSchema.El :=
  (c.1.map slotRow, c.2.map slotRow, ())

def vtableChangeOf : vtableChangeSchema.El → List Slot × List Slot := fun (a, b, ()) =>
  (List.map slotOf a, List.map slotOf b)

def basesChangeRow (c : List Base × List Base) : basesChangeSchema.El :=
  (c.1.map baseRow, c.2.map baseRow, ())

def basesChangeOf : basesChangeSchema.El → List Base × List Base := fun (a, b, ()) =>
  (List.map baseOf a, List.map baseOf b)

def fieldChangeRow (c : Field × Field) : fieldChangeSchema.El := (fieldRow c.1, fieldRow c.2, ())

def fieldChangeOf : fieldChangeSchema.El → Field × Field := fun (a, b, ()) =>
  (fieldOf a, fieldOf b)

def recordChangeRow (c : RecordChangeEntry) : recordChangeSchema.El :=
  (c.name, c.linkKey, c.path, c.room.map roomRow, c.access.map accessChangeRow,
    c.vtable.map vtableChangeRow, c.bases.map basesChangeRow,
    c.fieldsChanged.map fieldChangeRow, c.fieldsRemoved.map fieldRow,
    c.fieldsAdded.map fieldRow, ())

def recordChangeOf : recordChangeSchema.El → RecordChangeEntry :=
  fun (name, linkKey, path, room, access, vtable, bases, changed, removed, added, ()) =>
    { name, linkKey, path
      room := room.map roomOf
      access := access.map accessChangeOf
      vtable := vtable.map vtableChangeOf
      bases := bases.map basesChangeOf
      fieldsChanged := changed.map fieldChangeOf
      fieldsRemoved := removed.map fieldOf
      fieldsAdded := added.map fieldOf }

def underlyingChangeRow (c : String × String) : underlyingChangeSchema.El := (c.1, c.2, ())

def underlyingChangeOf : underlyingChangeSchema.El → String × String := fun (a, b, ()) => (a, b)

def enumeratorChangeRow (c : Enumerator × Enumerator) : enumeratorChangeSchema.El :=
  (enumeratorRow c.1, enumeratorRow c.2, ())

def enumeratorChangeOf : enumeratorChangeSchema.El → Enumerator × Enumerator := fun (a, b, ()) =>
  (enumeratorOf a, enumeratorOf b)

def enumChangeRow (c : EnumChangeEntry) : enumChangeSchema.El :=
  (c.name, c.linkKey, c.path, c.underlying.map underlyingChangeRow,
    c.added.map enumeratorRow, c.removed.map enumeratorRow,
    c.changed.map enumeratorChangeRow, ())

def enumChangeOf : enumChangeSchema.El → EnumChangeEntry :=
  fun (name, linkKey, path, underlying, added, removed, changed, ()) =>
    { name, linkKey, path
      underlying := underlying.map underlyingChangeOf
      added := added.map enumeratorOf
      removed := removed.map enumeratorOf
      changed := changed.map enumeratorChangeOf }

def functionChangeRow (c : FunctionChangeEntry) : functionChangeSchema.El :=
  (c.path, functionRow c.old, functionRow c.new, ())

def functionChangeOf : functionChangeSchema.El → FunctionChangeEntry := fun (path, a, b, ()) =>
  ⟨path, functionOf a, functionOf b⟩

def globalChangeRow (c : GlobalChangeEntry) : globalChangeSchema.El :=
  (c.path, globalRow c.old, globalRow c.new, ())

def globalChangeOf : globalChangeSchema.El → GlobalChangeEntry := fun (path, a, b, ()) =>
  ⟨path, globalOf a, globalOf b⟩

/-! ## The whole report -/

def document (r : Report) : schema.El :=
  (r.libName, r.arch, r.status, r.statusCode,
    r.functionsRemoved.map functionRow, r.functionsAdded.map functionRow,
    r.globalsRemoved.map globalRow, r.globalsAdded.map globalRow,
    r.functionChanges.map functionChangeRow, r.globalChanges.map globalChangeRow,
    r.recordChanges.map recordChangeRow, r.unreferencedRecordChanges.map recordChangeRow,
    r.recordsRemoved.map recordRow, r.recordsAdded.map recordRow,
    r.enumChanges.map enumChangeRow, r.enumExtensions.map enumChangeRow,
    r.unreferencedEnumChanges.map enumChangeRow, r.unreferencedEnumExtensions.map enumChangeRow,
    r.enumsRemoved.map enumRow, r.enumsAdded.map enumRow,
    r.functionSymbolsRemoved.map symbolRow, r.objectSymbolsRemoved.map symbolRow,
    r.functionSymbolsAdded.map symbolRow, r.objectSymbolsAdded.map symbolRow, ())

def ofDocument : schema.El → Report :=
  fun (libName, arch, status, statusCode, functionsRemoved, functionsAdded, globalsRemoved,
      globalsAdded, functionChanges, globalChanges, recordChanges, unreferencedRecordChanges,
      recordsRemoved, recordsAdded, enumChanges, enumExtensions, unreferencedEnumChanges,
      unreferencedEnumExtensions, enumsRemoved, enumsAdded, functionSymbolsRemoved,
      objectSymbolsRemoved, functionSymbolsAdded, objectSymbolsAdded, ()) =>
    { libName, arch, status, statusCode
      functionsRemoved := functionsRemoved.map functionOf
      functionsAdded := functionsAdded.map functionOf
      globalsRemoved := globalsRemoved.map globalOf
      globalsAdded := globalsAdded.map globalOf
      functionChanges := functionChanges.map functionChangeOf
      globalChanges := globalChanges.map globalChangeOf
      recordChanges := recordChanges.map recordChangeOf
      unreferencedRecordChanges := unreferencedRecordChanges.map recordChangeOf
      recordsRemoved := recordsRemoved.map recordOf
      recordsAdded := recordsAdded.map recordOf
      enumChanges := enumChanges.map enumChangeOf
      enumExtensions := enumExtensions.map enumChangeOf
      unreferencedEnumChanges := unreferencedEnumChanges.map enumChangeOf
      unreferencedEnumExtensions := unreferencedEnumExtensions.map enumChangeOf
      enumsRemoved := enumsRemoved.map enumOf
      enumsAdded := enumsAdded.map enumOf
      functionSymbolsRemoved := functionSymbolsRemoved.map symbolOf
      objectSymbolsRemoved := objectSymbolsRemoved.map symbolOf
      functionSymbolsAdded := functionSymbolsAdded.map symbolOf
      objectSymbolsAdded := objectSymbolsAdded.map symbolOf }

def toJson (r : Report) : Json := schema.toJson r.document

def text (r : Report) : String := r.toJson.prettyDocument

/-- The report that a text describes. -/
def ofText (s : String) : Except Fault Report :=
  (schema.decode (Bytes.ofText s)).map ofDocument

end AbiCompat.Report
