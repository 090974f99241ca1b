/-
# Dumps are read back

Loading the dump that was saved of an interface gives back the interface: the same entities with
the same data, ids and keys.

The dump is a text, and the text is what is read back: `Schema.decode_prettyDocument` gives the
rows that were written, whatever the schema.  What is left is about rows.  A row is read as the
entity that it was written for, every entity has a row in one of the thirteen lists, and no list
has rows for anything else.  The order in which a dump lists the entities is not the one of the
interface, but an interface does not depend on it, so the entities may be added in any order.

The other direction, which documents are accepted and what saving makes of them, is the matter of
`NormalForm`.
-/
import AbiCompat.Dump.Document
import AbiCompat.Proofs.Interfaces
import AbiCompat.Proofs.Json.RoundTrip
import Mathlib.Data.List.Basic

namespace AbiCompat.Dump

open Function (LeftInverse)

/-! ## Parts of types

Each part of a type is read back from its row, whatever of it was left out as the usual value. -/

theorem fieldOf_fieldRow : LeftInverse fieldOf fieldRow := fun f =>
  congrArg (Field.mk f.name f.typeId f.offset) (Access.ofPlace_place f.access)

theorem baseOf_baseRow : LeftInverse baseOf baseRow := fun b =>
  congrArg (Base.mk b.typeId b.isVirtual) (Access.ofPlace_place b.access)

theorem slotOf_slotRow : LeftInverse slotOf slotRow := fun s =>
  congrArg (Slot.mk · s.name s.value s.isPure) (SlotKind.ofPlace_place s.kind)

theorem enumeratorOf_enumeratorRow : LeftInverse enumeratorOf enumeratorRow := fun _ => rfl

theorem paramOf_paramRow : LeftInverse paramOf paramRow := fun _ => rfl

/-! ## Entries

The id is always written, so that the linker set key never stands in for it. -/

section Types

variable {t : TypeDecl}

theorem recordOf_recordRow {r : RecordLayout} (shape : t.shape = .record r) :
    recordOf (recordRow t r) = t := by
  have layout : RecordLayout.mk ((r.fields.map fieldRow).map fieldOf)
      ((r.bases.map baseRow).map baseOf) ((r.vtable.map slotRow).map slotOf)
      (RecordKind.ofPlace r.kind.place) r.isAnonymous r.templateArgs
      (Access.ofPlace r.access.place) = r := by
    rw [fieldOf_fieldRow.list_map, baseOf_baseRow.list_map, slotOf_slotRow.list_map,
      RecordKind.ofPlace_place, Access.ofPlace_place]
  obtain ⟨id, linkKey, sourceFile, name, target, size, alignment, _⟩ := t
  cases shape
  exact congrArg (TypeDecl.mk id linkKey sourceFile name target size alignment ∘ Shape.record)
    layout

theorem enumOf_enumRow {e : EnumLayout} (shape : t.shape = .enum e) :
    enumOf (enumRow t e) = t := by
  have layout : EnumLayout.mk e.underlying ((e.enumerators.map enumeratorRow).map enumeratorOf)
      (Access.ofPlace e.access.place) = e := by
    rw [enumeratorOf_enumeratorRow.list_map, Access.ofPlace_place]
  obtain ⟨id, linkKey, sourceFile, name, target, size, alignment, _⟩ := t
  cases shape
  exact congrArg (TypeDecl.mk id linkKey sourceFile name target size alignment ∘ Shape.enum)
    layout

theorem functionTypeOf_functionTypeRow {s : Signature} (shape : t.shape = .function s) :
    functionTypeOf (functionTypeRow t s) = t := by
  have signature : Signature.mk s.returns ((s.params.map paramRow).map paramOf) s.templateArgs
      = s := by
    rw [paramOf_paramRow.list_map]
  obtain ⟨id, linkKey, sourceFile, name, target, size, alignment, _⟩ := t
  cases shape
  exact congrArg (TypeDecl.mk id linkKey sourceFile name target size alignment ∘ Shape.function)
    signature

theorem referenceOf_referenceRow {s : Shape} (shape : t.shape = s) :
    referenceOf s (referenceRow t) = t := by
  cases shape
  rfl

theorem builtinOf_builtinRow {b : Builtin} (shape : t.shape = .builtin b) :
    builtinOf (builtinRow t b) = t := by
  cases t
  cases shape
  rfl

theorem qualifiedOf_qualifiedRow {q : Qualifiers} (shape : t.shape = .qualified q) :
    qualifiedOf (qualifiedRow t q) = t := by
  cases t
  cases shape
  rfl

end Types

theorem functionOf_functionRow : LeftInverse functionOf functionRow := by
  intro f
  have signature : Signature.mk f.signature.returns ((f.signature.params.map paramRow).map paramOf)
      f.signature.templateArgs = f.signature := by
    rw [paramOf_paramRow.list_map]
  have whole : functionOf (functionRow f) = ⟨f.linkKey, f.sourceFile, f.name,
      ⟨f.signature.returns, (f.signature.params.map paramRow).map paramOf,
        f.signature.templateArgs⟩, Access.ofPlace f.access.place⟩ := rfl
  rw [whole, signature, Access.ofPlace_place]

theorem globalOf_globalRow : LeftInverse globalOf globalRow := fun v =>
  congrArg (GlobalDecl.mk v.linkKey v.sourceFile v.name v.typeId) (Access.ofPlace_place v.access)

theorem symbolOf_symbolRow : LeftInverse symbolOf symbolRow := fun s =>
  congrArg (Symbol.mk s.name) (Binding.ofPlace_place s.binding)

/-! ## Lists

A row of a list is read as the entity that it was written for, and every entity has a row in some
list. -/

namespace Form

theorem entity_of_typeRow? {form : Form} {t : TypeDecl} {row : form.schema.El}
    (h : form.typeRow? t t.shape = some row) : form.entity row = .type t := by
  cases shape : t.shape with
  | record r =>
      rw [shape] at h
      cases form with
      | record => exact Option.some.inj h ▸ congrArg Entity.type (recordOf_recordRow shape)
      | _ => cases h
  | enum e =>
      rw [shape] at h
      cases form with
      | enum => exact Option.some.inj h ▸ congrArg Entity.type (enumOf_enumRow shape)
      | _ => cases h
  | pointer =>
      rw [shape] at h
      cases form with
      | pointer => exact Option.some.inj h ▸ congrArg Entity.type (referenceOf_referenceRow shape)
      | _ => cases h
  | lvalueReference =>
      rw [shape] at h
      cases form with
      | lvalueReference =>
          exact Option.some.inj h ▸ congrArg Entity.type (referenceOf_referenceRow shape)
      | _ => cases h
  | rvalueReference =>
      rw [shape] at h
      cases form with
      | rvalueReference =>
          exact Option.some.inj h ▸ congrArg Entity.type (referenceOf_referenceRow shape)
      | _ => cases h
  | qualified q =>
      rw [shape] at h
      cases form with
      | qualified => exact Option.some.inj h ▸ congrArg Entity.type (qualifiedOf_qualifiedRow shape)
      | _ => cases h
  | array =>
      rw [shape] at h
      cases form with
      | array => exact Option.some.inj h ▸ congrArg Entity.type (referenceOf_referenceRow shape)
      | _ => cases h
  | builtin b =>
      rw [shape] at h
      cases form with
      | builtin => exact Option.some.inj h ▸ congrArg Entity.type (builtinOf_builtinRow shape)
      | _ => cases h
  | function s =>
      rw [shape] at h
      cases form with
      | functionType =>
          exact Option.some.inj h ▸ congrArg Entity.type (functionTypeOf_functionTypeRow shape)
      | _ => cases h

theorem entity_of_row? {form : Form} {e : Entity} {row : form.schema.El}
    (h : form.row? e = some row) : form.entity row = e := by
  cases e with
  | type t => exact entity_of_typeRow? h
  | function f =>
      cases form with
      | function => exact Option.some.inj h ▸ congrArg Entity.function (functionOf_functionRow f)
      | _ => cases h
  | global v =>
      cases form with
      | global => exact Option.some.inj h ▸ congrArg Entity.global (globalOf_globalRow v)
      | _ => cases h
  | functionSymbol s =>
      cases form with
      | functionSymbol =>
          exact Option.some.inj h ▸ congrArg Entity.functionSymbol (symbolOf_symbolRow s)
      | _ => cases h
  | objectSymbol s =>
      cases form with
      | objectSymbol =>
          exact Option.some.inj h ▸ congrArg Entity.objectSymbol (symbolOf_symbolRow s)
      | _ => cases h

theorem mem_all (form : Form) : form ∈ all := by
  cases form <;> decide

theorem exists_row? (e : Entity) : ∃ (form : Form) (row : form.schema.El),
    form.row? e = some row := by
  cases e with
  | type t =>
      have inShape : ∀ shape : Shape, ∃ (form : Form) (row : form.schema.El),
          form.typeRow? t shape = some row
        | .record _ => ⟨record, _, rfl⟩
        | .enum _ => ⟨enum, _, rfl⟩
        | .pointer => ⟨pointer, _, rfl⟩
        | .lvalueReference => ⟨lvalueReference, _, rfl⟩
        | .rvalueReference => ⟨rvalueReference, _, rfl⟩
        | .qualified _ => ⟨qualified, _, rfl⟩
        | .array => ⟨array, _, rfl⟩
        | .builtin _ => ⟨builtin, _, rfl⟩
        | .function _ => ⟨functionType, _, rfl⟩
      exact inShape t.shape
  | function f => exact ⟨function, _, rfl⟩
  | global v => exact ⟨global, _, rfl⟩
  | functionSymbol s => exact ⟨functionSymbol, _, rfl⟩
  | objectSymbol s => exact ⟨objectSymbol, _, rfl⟩

end Form

/-- The lists that were written for some entities have those that belong in one of them. -/
theorem mem_entitiesOf_rowsOf {es : List Entity} {e : Entity} : ∀ {forms : List Form},
    e ∈ entitiesOf forms (rowsOf es forms) ↔
      e ∈ es ∧ ∃ form ∈ forms, ∃ row, form.row? e = some row
  | [] => by simp [entitiesOf]
  | form :: forms => by
      have here : e ∈ (es.filterMap form.row?).map form.entity ↔
          e ∈ es ∧ ∃ row, form.row? e = some row := by
        rw [List.mem_map]
        constructor
        · rintro ⟨row, mem, rfl⟩
          obtain ⟨f, hf, written⟩ := List.mem_filterMap.mp mem
          rw [Form.entity_of_row? written]
          exact ⟨hf, row, written⟩
        · rintro ⟨he, row, written⟩
          exact ⟨row, List.mem_filterMap.mpr ⟨e, he, written⟩, Form.entity_of_row? written⟩
      have both : entitiesOf (form :: forms) (rowsOf es (form :: forms))
          = (es.filterMap form.row?).map form.entity ++ entitiesOf forms (rowsOf es forms) := rfl
      rw [both, List.mem_append, here, mem_entitiesOf_rowsOf, ← and_or_left,
        List.exists_mem_cons_iff]

/-! ## Documents -/

theorem schema_isRegular : schema.isRegular = true := by decide

/-- The dump of an interface is a dump of that interface. -/
theorem load_save (m : Interface) : load (Bytes.ofText (save m)) = .ok m := by
  have read : schema.decode (Bytes.ofText (save m)) = .ok (document m) :=
    Schema.decode_prettyDocument schema_isRegular _
  have entities : Interface.ofEntities (entitiesOf Form.all (document m)) = .ok m := by
    refine Interface.ofEntities_eq_ok fun e => mem_entitiesOf_rowsOf.trans (and_iff_left ?_)
    obtain ⟨form, row, written⟩ := Form.exists_row? e
    exact ⟨form, form.mem_all, row, written⟩
  simp only [load, read, entities]

end AbiCompat.Dump
