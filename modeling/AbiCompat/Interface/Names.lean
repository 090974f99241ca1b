/-
# The names that stand for accesses, kinds and bindings in documents

The first name of each schema is the value that a document need not mention.

A value is written as its name and read by the place of the name, and back again is the same value;
that is all that rows need to know about them.
-/
import AbiCompat.Interface.Decl
import AbiCompat.Json.Schema

namespace AbiCompat

namespace Access

/-- An access in a document. -/
def schema : Schema := .tag "public" ["protected", "private"]

/-- The place of an access in its schema. -/
def place : Access → Fin 3
  | pub => 0
  | prot => 1
  | priv => 2

/-- The access at a place of the schema. -/
def ofPlace : Fin 3 → Access
  | 0 => pub
  | 1 => prot
  | 2 => priv

theorem ofPlace_place (a : Access) : ofPlace (place a) = a := by cases a <;> rfl

end Access

namespace RecordKind

/-- A record kind in a document. -/
def schema : Schema := .tag "struct" ["class", "union"]

/-- The place of a record kind in its schema. -/
def place : RecordKind → Fin 3
  | structRecord => 0
  | classRecord => 1
  | unionRecord => 2

/-- The record kind at a place of the schema. -/
def ofPlace : Fin 3 → RecordKind
  | 0 => structRecord
  | 1 => classRecord
  | 2 => unionRecord

theorem ofPlace_place (k : RecordKind) : ofPlace (place k) = k := by cases k <;> rfl

end RecordKind

namespace SlotKind

/-- A slot kind in a document. -/
def schema : Schema :=
  .tag "vcall_offset" ["vbase_offset", "offset_to_top", "rtti", "function_pointer",
    "complete_dtor_pointer", "deleting_dtor_pointer", "unused_function_pointer"]

/-- The place of a slot kind in its schema. -/
def place : SlotKind → Fin 8
  | vcallOffset => 0
  | vbaseOffset => 1
  | offsetToTop => 2
  | rtti => 3
  | functionPointer => 4
  | completeDtorPointer => 5
  | deletingDtorPointer => 6
  | unusedFunctionPointer => 7

/-- The slot kind at a place of the schema. -/
def ofPlace : Fin 8 → SlotKind
  | 0 => vcallOffset
  | 1 => vbaseOffset
  | 2 => offsetToTop
  | 3 => rtti
  | 4 => functionPointer
  | 5 => completeDtorPointer
  | 6 => deletingDtorPointer
  | 7 => unusedFunctionPointer

theorem ofPlace_place (k : SlotKind) : ofPlace (place k) = k := by cases k <;> rfl

end SlotKind

namespace Binding

/-- A binding in a document. -/
def schema : Schema := .tag "global" ["weak"]

/-- The place of a binding in its schema. -/
def place : Binding → Fin 2
  | global => 0
  | weak => 1

/-- The binding at a place of the schema. -/
def ofPlace : Fin 2 → Binding
  | 0 => global
  | 1 => weak

theorem ofPlace_place (b : Binding) : ofPlace (place b) = b := by cases b <;> rfl

end Binding

end AbiCompat
