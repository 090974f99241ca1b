/-
# Dumps: interfaces as documents

`load` reads the thirteen lists of a dump and enters their entries in order; `save` writes an
interface with every list in key order, so that two equal interfaces have one text.

The order of the lists matters for one thing only, which of several conflicts is reported: it is
the first one that comes up when the lists are entered in the order of `Form.all`.

The thirteen lists are one family.  Each has a `Form` with the name of the list, the row of its
entries, and the collection of the interface where they belong; loading and saving go through the
forms.
-/
import AbiCompat.Dump.Row
import AbiCompat.Json.Read
import AbiCompat.Json.Write

namespace AbiCompat.Dump

/-- The lists of a dump, in their order. -/
inductive Form where
  | record
  | enum
  | pointer
  | lvalueReference
  | rvalueReference
  | builtin
  | qualified
  | array
  | functionType
  | function
  | global
  | functionSymbol
  | objectSymbol
deriving DecidableEq

namespace Form

/-- All lists, in the order of the document. -/
def all : List Form :=
  [record, enum, pointer, lvalueReference, rvalueReference, builtin, qualified, array,
    functionType, function, global, functionSymbol, objectSymbol]

def listName : Form → String
  | record => "record_types"
  | enum => "enum_types"
  | pointer => "pointer_types"
  | lvalueReference => "lvalue_reference_types"
  | rvalueReference => "rvalue_reference_types"
  | builtin => "builtin_types"
  | qualified => "qualified_types"
  | array => "array_types"
  | functionType => "function_types"
  | function => "functions"
  | global => "global_vars"
  | functionSymbol => "elf_functions"
  | objectSymbol => "elf_objects"

/-- The schema of the entries. -/
def schema : Form → Schema
  | record => recordSchema
  | enum => enumSchema
  | pointer | lvalueReference | rvalueReference | array => referenceSchema
  | builtin => builtinSchema
  | qualified => qualifiedSchema
  | functionType => functionTypeSchema
  | function => functionSchema
  | global => globalSchema
  | functionSymbol | objectSymbol => symbolSchema

def entity : (form : Form) → form.schema.El → Entity
  | record, row => .type (recordOf row)
  | enum, row => .type (enumOf row)
  | pointer, row => .type (referenceOf .pointer row)
  | lvalueReference, row => .type (referenceOf .lvalueReference row)
  | rvalueReference, row => .type (referenceOf .rvalueReference row)
  | builtin, row => .type (builtinOf row)
  | qualified, row => .type (qualifiedOf row)
  | array, row => .type (referenceOf .array row)
  | functionType, row => .type (functionTypeOf row)
  | function, row => .function (functionOf row)
  | global, row => .global (globalOf row)
  | functionSymbol, row => .functionSymbol (symbolOf row)
  | objectSymbol, row => .objectSymbol (symbolOf row)

/-- The entry of a type in this list; nothing if the type belongs to another one. -/
def typeRow? (t : TypeDecl) : (form : Form) → Shape → Option form.schema.El
  | record, .record r => some (recordRow t r)
  | enum, .enum e => some (enumRow t e)
  | pointer, .pointer => some (referenceRow t)
  | lvalueReference, .lvalueReference => some (referenceRow t)
  | rvalueReference, .rvalueReference => some (referenceRow t)
  | builtin, .builtin b => some (builtinRow t b)
  | qualified, .qualified q => some (qualifiedRow t q)
  | array, .array => some (referenceRow t)
  | functionType, .function s => some (functionTypeRow t s)
  | _, _ => none

/-- The entry of an entity in this list; nothing if the entity belongs to another one. -/
def row? : (form : Form) → Entity → Option form.schema.El
  | form, .type t => typeRow? t form t.shape
  | function, .function f => some (functionRow f)
  | global, .global g => some (globalRow g)
  | functionSymbol, .functionSymbol s => some (symbolRow s)
  | objectSymbol, .objectSymbol s => some (symbolRow s)
  | _, _ => none

end Form

/-- The fields of a document with these lists. -/
def listsOf : List Form → Fields
  | [] => .done
  | form :: forms => .optional form.listName (.list form.schema) (listsOf forms)

def schema : Schema := .object "DumpDocument" true (listsOf Form.all)

/-- The entities of the lists, list after list. -/
def entitiesOf : (forms : List Form) → (listsOf forms).Row → List Entity
  | [], _ => []
  | form :: forms, (rows, rest) => List.map form.entity rows ++ entitiesOf forms rest

/-- The lists of some entities, each list in the order of the entities. -/
def rowsOf (es : List Entity) : (forms : List Form) → (listsOf forms).Row
  | [] => ()
  | form :: forms => (es.filterMap form.row?, rowsOf es forms)

/-- Why a text is not a dump of an interface. -/
inductive LoadError where
  | fault (f : Fault)
  | conflict (c : KeyConflict)

/-- The wording of a load error. -/
def LoadError.message : LoadError → String
  | fault f => "malformed dump: " ++ f.message
  | conflict c => "invalid dump: " ++ c.message

/-- The interface that a dump describes. -/
def load (bs : Bytes) : Except LoadError Interface :=
  match schema.decode bs with
  | .error f => .error (.fault f)
  | .ok document =>
    match Interface.ofEntities (entitiesOf Form.all document) with
    | .error c => .error (.conflict c)
    | .ok m => .ok m

def document (m : Interface) : schema.El := rowsOf m.entities Form.all

/-- The dump of an interface. -/
def save (m : Interface) : String := (schema.toJson (document m)).prettyDocument

/-- The entity that a single entry describes. -/
def readEntry (form : Form) (bs : Bytes) : Except Fault Entity :=
  (form.schema.decode bs).map form.entity

end AbiCompat.Dump
