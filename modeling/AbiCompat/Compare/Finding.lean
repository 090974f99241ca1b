/-
# Findings

What a comparison finds: changes of entities that both versions have, with the path on which they
were met, and entities and symbols that only one version has.

A finding keeps the declarations of both versions whole.  What is shown of them in a report, with
names in the place of ids, is made from that afterwards, so that a finding does not hang on any
form of reports.
-/
import AbiCompat.Interface.Basic

namespace AbiCompat

/-- Whether a type was met on the way from an exported name. -/
inductive Reach where
  | referenced
  | unreferenced
deriving DecidableEq

/-- Which version has what the other one lacks. -/
inductive Direction where
  | removed
  | added
deriving DecidableEq

/-- Two different sizes or alignments. -/
structure RoomChange where
  oldSize : UInt64
  newSize : UInt64
  oldAlignment : UInt32
  newAlignment : UInt32
deriving DecidableEq

/-- A record whose own layout changed. -/
structure RecordChange where
  old : TypeDecl
  new : TypeDecl
  oldLayout : RecordLayout
  newLayout : RecordLayout
  room : Option RoomChange
  access : Option (Access × Access)
  vtableChanged : Bool
  basesChanged : Bool
  fieldsChanged : List (Field × Field)
  fieldsRemoved : List Field
  fieldsAdded : List Field
deriving DecidableEq

/-- An enumeration whose values or storage changed. -/
structure EnumChange where
  old : TypeDecl
  new : TypeDecl
  /-- The names of the types that store the values, if they are different. -/
  underlying : Option (String × String)
  added : List Enumerator
  removed : List Enumerator
  changed : List (Enumerator × Enumerator)
deriving DecidableEq

namespace EnumChange

/-- Whether something that callers use is gone or different. -/
def isIncompatible (c : EnumChange) : Bool :=
  !c.removed.isEmpty || !c.changed.isEmpty || c.underlying.isSome

/-- Whether there are new values and nothing else changed. -/
def isExtension (c : EnumChange) : Bool := !c.isIncompatible && !c.added.isEmpty

end EnumChange

/-- A change of an entity that both versions have. -/
inductive Change where
  | record (c : RecordChange)
  | enum (c : EnumChange)
  | function (old new : FunctionDecl)
  | global (old new : GlobalDecl)
deriving DecidableEq

namespace Change

/-- The name under which the change is shown. -/
def name : Change → String
  | record c => c.old.name
  | enum c => c.old.name
  | function old _ => old.name
  | global old _ => old.name

/-- Whether the change breaks callers of what it is found in. -/
def isIncompatible : Change → Bool
  | enum c => c.isIncompatible
  | record _ | function _ _ | global _ _ => true

end Change

/-- A change together with where it was met: the names of the entities under comparison,
outermost first. -/
structure Finding where
  reach : Reach
  path : List String
  change : Change
deriving DecidableEq

def Finding.pathText (f : Finding) : String := String.intercalate "-> " f.path

/-- An entity that only one version has. -/
inductive LoneEntity where
  | function (f : FunctionDecl)
  | global (g : GlobalDecl)
  | record (t : TypeDecl) (layout : RecordLayout)
  | enum (t : TypeDecl) (layout : EnumLayout)
deriving DecidableEq

namespace LoneEntity

/-- The linker set key of the entity. -/
def key : LoneEntity → String
  | function f => f.linkKey
  | global g => g.linkKey
  | record t _ => t.linkKey
  | enum t _ => t.linkKey

/-- Functions and global variables are exported; a lone type is listed only where all
types are compared. -/
def reach : LoneEntity → Reach
  | function _ | global _ => .referenced
  | record _ _ | enum _ _ => .unreferenced

end LoneEntity

/-- An entity that came or went. -/
structure LoneChange where
  direction : Direction
  entity : LoneEntity
deriving DecidableEq

/-- The two lists of dynamic symbols. -/
inductive SymbolKind where
  | function
  | object
deriving DecidableEq

/-- A dynamic symbol that came or went. -/
structure SymbolChange where
  direction : Direction
  kind : SymbolKind
  symbol : Symbol
deriving DecidableEq

end AbiCompat
