/-
# Reports are read back

An entry of a report is read as the entry that was written, and a report as the report.  Lists and
options that are empty are not written at all; what is filled in for them when the text is read is
empty again.

## What is proved

    (Report.ofText r.text) = r    for every report, whether a comparison made it or not

The text is read back as a value by the round trip of schemas, which is proved for all schemas at
once in `Json/RoundTrip`.  What is left for this module is that rows lose nothing: what is read
from the row of a thing is the thing.  There is one such lemma for each kind of row, and larger
rows use those of their parts.

## What is not

Texts that were not made by writing a report may be read as well, with members in other orders, or
with defaults left out; which ones is the matter of `Json/Accepted`.
-/
import AbiCompat.Proofs.Json.RoundTrip
import AbiCompat.Report.Document
import Mathlib.Data.List.Basic

namespace AbiCompat.Report

open Function (LeftInverse)

/-! ## Declarations -/

theorem paramOf_paramRow : LeftInverse paramOf paramRow := fun _ => rfl

theorem functionOf_functionRow : LeftInverse functionOf functionRow := by
  intro f
  have signature : Signature.mk f.signature.returns ((f.signature.params.map paramRow).map paramOf)
      f.signature.templateArgs = f.signature := by
    rw [paramOf_paramRow.list_map]
  have whole : functionOf (functionRow f) = ⟨f.linkKey, f.sourceFile, f.name,
      ⟨f.signature.returns, (f.signature.params.map paramRow).map paramOf,
        f.signature.templateArgs⟩, Access.ofPlace f.access.place⟩ := rfl
  rw [whole, signature, Access.ofPlace_place]

theorem globalOf_globalRow : LeftInverse globalOf globalRow := fun v =>
  congrArg (GlobalDecl.mk v.linkKey v.sourceFile v.name v.typeId) (Access.ofPlace_place v.access)

theorem fieldOf_fieldRow : LeftInverse fieldOf fieldRow := fun f =>
  congrArg (Field.mk f.name f.typeId f.offset) (Access.ofPlace_place f.access)

theorem baseOf_baseRow : LeftInverse baseOf baseRow := fun b =>
  congrArg (Base.mk b.typeId b.isVirtual) (Access.ofPlace_place b.access)

theorem slotOf_slotRow : LeftInverse slotOf slotRow := fun s =>
  congrArg (Slot.mk · s.name s.value s.isPure) (SlotKind.ofPlace_place s.kind)

theorem enumeratorOf_enumeratorRow : LeftInverse enumeratorOf enumeratorRow := fun _ => rfl

theorem symbolOf_symbolRow : LeftInverse symbolOf symbolRow := fun s =>
  congrArg (Symbol.mk s.name) (Binding.ofPlace_place s.binding)

/-! ## Whole types -/

theorem recordOf_recordRow : LeftInverse recordOf recordRow := by
  intro r
  have whole : recordOf (recordRow r) = { r with
      kind := RecordKind.ofPlace r.kind.place
      access := Access.ofPlace r.access.place
      fields := (r.fields.map fieldRow).map fieldOf
      bases := (r.bases.map baseRow).map baseOf
      vtable := (r.vtable.map slotRow).map slotOf } := rfl
  rw [whole, RecordKind.ofPlace_place, Access.ofPlace_place, fieldOf_fieldRow.list_map,
    baseOf_baseRow.list_map, slotOf_slotRow.list_map]

theorem enumOf_enumRow : LeftInverse enumOf enumRow := by
  intro e
  have whole : enumOf (enumRow e) = { e with
      enumerators := (e.enumerators.map enumeratorRow).map enumeratorOf
      access := Access.ofPlace e.access.place } := rfl
  rw [whole, enumeratorOf_enumeratorRow.list_map, Access.ofPlace_place]

/-! ## Changes -/

theorem roomOf_roomRow : LeftInverse roomOf roomRow := fun _ => rfl

theorem accessChangeOf_accessChangeRow : LeftInverse accessChangeOf accessChangeRow := fun c =>
  Prod.ext (Access.ofPlace_place c.1) (Access.ofPlace_place c.2)

theorem vtableChangeOf_vtableChangeRow : LeftInverse vtableChangeOf vtableChangeRow := fun c =>
  Prod.ext (slotOf_slotRow.list_map c.1) (slotOf_slotRow.list_map c.2)

theorem basesChangeOf_basesChangeRow : LeftInverse basesChangeOf basesChangeRow := fun c =>
  Prod.ext (baseOf_baseRow.list_map c.1) (baseOf_baseRow.list_map c.2)

theorem fieldChangeOf_fieldChangeRow : LeftInverse fieldChangeOf fieldChangeRow := fun c =>
  Prod.ext (fieldOf_fieldRow c.1) (fieldOf_fieldRow c.2)

theorem map_map_option {α β : Type} {f : β → α} {g : α → β} (h : LeftInverse f g)
    (x : Option α) : (x.map g).map f = x := by
  rw [Option.map_map, h.comp_eq_id, Option.map_id_fun, id]

theorem recordChangeOf_recordChangeRow : LeftInverse recordChangeOf recordChangeRow := by
  intro c
  have whole : recordChangeOf (recordChangeRow c) = { c with
      room := (c.room.map roomRow).map roomOf
      access := (c.access.map accessChangeRow).map accessChangeOf
      vtable := (c.vtable.map vtableChangeRow).map vtableChangeOf
      bases := (c.bases.map basesChangeRow).map basesChangeOf
      fieldsChanged := (c.fieldsChanged.map fieldChangeRow).map fieldChangeOf
      fieldsRemoved := (c.fieldsRemoved.map fieldRow).map fieldOf
      fieldsAdded := (c.fieldsAdded.map fieldRow).map fieldOf } := rfl
  rw [whole, map_map_option roomOf_roomRow, map_map_option accessChangeOf_accessChangeRow,
    map_map_option vtableChangeOf_vtableChangeRow, map_map_option basesChangeOf_basesChangeRow,
    fieldChangeOf_fieldChangeRow.list_map, fieldOf_fieldRow.list_map c.fieldsRemoved,
    fieldOf_fieldRow.list_map c.fieldsAdded]

theorem underlyingChangeOf_underlyingChangeRow :
    LeftInverse underlyingChangeOf underlyingChangeRow := fun _ => rfl

theorem enumeratorChangeOf_enumeratorChangeRow :
    LeftInverse enumeratorChangeOf enumeratorChangeRow := fun _ => rfl

theorem enumChangeOf_enumChangeRow : LeftInverse enumChangeOf enumChangeRow := by
  intro c
  have whole : enumChangeOf (enumChangeRow c) = { c with
      underlying := (c.underlying.map underlyingChangeRow).map underlyingChangeOf
      added := (c.added.map enumeratorRow).map enumeratorOf
      removed := (c.removed.map enumeratorRow).map enumeratorOf
      changed := (c.changed.map enumeratorChangeRow).map enumeratorChangeOf } := rfl
  rw [whole, map_map_option underlyingChangeOf_underlyingChangeRow,
    enumeratorOf_enumeratorRow.list_map c.added, enumeratorOf_enumeratorRow.list_map c.removed,
    enumeratorChangeOf_enumeratorChangeRow.list_map]

theorem functionChangeOf_functionChangeRow : LeftInverse functionChangeOf functionChangeRow :=
  fun c => congrArg₂ (FunctionChangeEntry.mk c.path) (functionOf_functionRow c.old)
    (functionOf_functionRow c.new)

theorem globalChangeOf_globalChangeRow : LeftInverse globalChangeOf globalChangeRow :=
  fun c => congrArg₂ (GlobalChangeEntry.mk c.path) (globalOf_globalRow c.old)
    (globalOf_globalRow c.new)

/-! ## The whole report -/

theorem ofDocument_document : LeftInverse ofDocument document := by
  intro r
  have whole : ofDocument (document r) = { r with
      functionsRemoved := (r.functionsRemoved.map functionRow).map functionOf
      functionsAdded := (r.functionsAdded.map functionRow).map functionOf
      globalsRemoved := (r.globalsRemoved.map globalRow).map globalOf
      globalsAdded := (r.globalsAdded.map globalRow).map globalOf
      functionChanges := (r.functionChanges.map functionChangeRow).map functionChangeOf
      globalChanges := (r.globalChanges.map globalChangeRow).map globalChangeOf
      recordChanges := (r.recordChanges.map recordChangeRow).map recordChangeOf
      unreferencedRecordChanges :=
        (r.unreferencedRecordChanges.map recordChangeRow).map recordChangeOf
      recordsRemoved := (r.recordsRemoved.map recordRow).map recordOf
      recordsAdded := (r.recordsAdded.map recordRow).map recordOf
      enumChanges := (r.enumChanges.map enumChangeRow).map enumChangeOf
      enumExtensions := (r.enumExtensions.map enumChangeRow).map enumChangeOf
      unreferencedEnumChanges := (r.unreferencedEnumChanges.map enumChangeRow).map enumChangeOf
      unreferencedEnumExtensions :=
        (r.unreferencedEnumExtensions.map enumChangeRow).map enumChangeOf
      enumsRemoved := (r.enumsRemoved.map enumRow).map enumOf
      enumsAdded := (r.enumsAdded.map enumRow).map enumOf
      functionSymbolsRemoved := (r.functionSymbolsRemoved.map symbolRow).map symbolOf
      objectSymbolsRemoved := (r.objectSymbolsRemoved.map symbolRow).map symbolOf
      functionSymbolsAdded := (r.functionSymbolsAdded.map symbolRow).map symbolOf
      objectSymbolsAdded := (r.objectSymbolsAdded.map symbolRow).map symbolOf } := rfl
  rw [whole]
  simp only [functionOf_functionRow.list_map _, globalOf_globalRow.list_map _,
    functionChangeOf_functionChangeRow.list_map _, globalChangeOf_globalChangeRow.list_map _,
    recordChangeOf_recordChangeRow.list_map _, recordOf_recordRow.list_map _,
    enumChangeOf_enumChangeRow.list_map _, enumOf_enumRow.list_map _,
    symbolOf_symbolRow.list_map _]

theorem schema_isRegular : schema.isRegular = true := by decide

/-- The text of a report is the text of that report. -/
theorem ofText_text (r : Report) : ofText (text r) = .ok r := by
  have read : schema.decode (Bytes.ofText (text r)) = .ok (document r) :=
    Schema.decode_prettyDocument schema_isRegular _
  rw [ofText, read, Except.map, ofDocument_document]

end AbiCompat.Report
