/-
# Schemas: the documents a program reads and writes

A schema says which JSON values a document may be.  `Schema.El` is the type of the documents of a
schema, so a value that does not fit cannot be built, and a structure of the library is tied to its
document by two plain functions.

A field of an object is required, or has a default; a default may be written or not.  An object may
refuse members that it does not know, or pass over them.
-/
import AbiCompat.Json.Basic

namespace AbiCompat

/-- Whether a field may be left out when reading, and is left out when writing. -/
inductive Presence where
  /-- The field has to be there. -/
  | required
  /-- A missing field has its initial value; it is always written. -/
  | optional
  /-- A missing field has its initial value, and that value is not written. -/
  | elided
deriving DecidableEq

mutual

/-- The shape of a document. -/
inductive Schema where
  | text
  | flag
  | uint64
  | uint32
  | int64
  | list (item : Schema)
  | option (inner : Schema)
  /-- One of some names; the first is the initial value. -/
  | tag (first : String) (rest : List String)
  /-- Named fields; a strict object refuses members it does not know. -/
  | object (name : String) (isStrict : Bool) (fields : Fields)

/-- The fields of an object in their order. -/
inductive Fields where
  | done
  | field (presence : Presence) (name : String) (schema : Schema) (rest : Fields)

end

namespace Fields

/-- The first field has to be there. -/
abbrev required (name : String) (schema : Schema) (rest : Fields) : Fields :=
  field .required name schema rest

/-- The first field may be missing. -/
abbrev optional (name : String) (schema : Schema) (rest : Fields) : Fields :=
  field .optional name schema rest

/-- The first field may be missing and is not written in its initial value. -/
abbrev elided (name : String) (schema : Schema) (rest : Fields) : Fields :=
  field .elided name schema rest

def names : Fields → List String
  | done => []
  | field _ name _ rest => name :: rest.names

/-- The number of fields. -/
def size : Fields → Nat
  | done => 0
  | field _ _ _ rest => rest.size + 1

end Fields

mutual

/-- The documents of a schema. -/
def Schema.El : Schema → Type
  | .text => String
  | .flag => Bool
  | .uint64 => UInt64
  | .uint32 => UInt32
  | .int64 => Int64
  | .list item => List item.El
  | .option inner => Option inner.El
  | .tag _ rest => Fin (rest.length + 1)
  | .object _ _ fields => fields.Row

/-- The values of all fields. -/
def Fields.Row : Fields → Type
  | .done => Unit
  | .field _ _ schema rest => schema.El × rest.Row

end

mutual

/-- The value of a field that is missing. -/
def Schema.initial : (s : Schema) → s.El
  | .text => ""
  | .flag => false
  | .uint64 => (0 : UInt64)
  | .uint32 => (0 : UInt32)
  | .int64 => (0 : Int64)
  | .list _ => []
  | .option _ => none
  | .tag _ rest => (⟨0, Nat.succ_pos rest.length⟩ : Fin (rest.length + 1))
  | .object _ _ fields => fields.initial

/-- The row of an object that has no members. -/
def Fields.initial : (fs : Fields) → fs.Row
  | .done => ()
  | .field _ _ schema rest => (schema.initial, rest.initial)

end

/-- Whether a value is the one that a missing field has.  Objects are always written. -/
def Schema.isInitial : (s : Schema) → s.El → Bool
  | .text, (x : String) => x == ""
  | .flag, (x : Bool) => x == false
  | .uint64, (x : UInt64) => x == 0
  | .uint32, (x : UInt32) => x == 0
  | .int64, (x : Int64) => x == 0
  | .list _, (xs : List _) => xs.isEmpty
  | .option _, (x : Option _) => x.isNone
  | .tag _ _, (i : Fin _) => i.val == 0
  | .object _ _ _, _ => false

/-- The name that a tag stands for. -/
def Schema.tagName (first : String) (rest : List String) (i : Fin (rest.length + 1)) : String :=
  (first :: rest)[i]

mutual

/-- The JSON value of a document, with every field that is not left out. -/
def Schema.toJson : (s : Schema) → s.El → Json
  | .text, (x : String) => .string x
  | .flag, (x : Bool) => .bool x
  | .uint64, (x : UInt64) => .ofUInt64 x
  | .uint32, (x : UInt32) => .ofUInt64 x.toUInt64
  | .int64, (x : Int64) => .ofInt64 x
  | .list item, (xs : List item.El) => .array (xs.map item.toJson)
  | .option _, (none : Option _) => .null
  | .option inner, (some x : Option inner.El) => inner.toJson x
  | .tag first rest, i => .string (Schema.tagName first rest i)
  | .object _ _ fields, row => .object (fields.toMembers row)

def Fields.toMembers : (fs : Fields) → fs.Row → List (String × Json)
  | .done, _ => []
  | .field presence name schema rest, (x, row) =>
    if presence = .elided ∧ schema.isInitial x then rest.toMembers row
    else (name, schema.toJson x) :: rest.toMembers row

end

end AbiCompat
