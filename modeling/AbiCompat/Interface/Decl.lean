/-
# Declarations: what a library exports and the types it is written in

Plain data for everything that matters to binary compatibility.  One declaration refers to another
by type id only, so cyclic type graphs are ordinary values.

What all types have is in `TypeDecl`, and what only one kind of types has is in its `Shape`.  So a
type cannot have the data of a kind that is not its own.  The target of references and the like is
among what all have, because a record or an enumeration may be given one as well.
-/

namespace AbiCompat

/-- Who may use a member or a type. -/
inductive Access where
  | pub
  | prot
  | priv
deriving DecidableEq

namespace Access

/-- The spelling of an access in documents. -/
def text : Access → String
  | pub => "public"
  | prot => "protected"
  | priv => "private"

/-- Whether the change takes the name away from someone who could use it: from
public to anything else, or from protected to private. -/
def downgradedTo : Access → Access → Bool
  | pub, new => new != pub
  | prot, new => new == priv
  | priv, _ => false

@[simp] theorem downgradedTo_self (a : Access) : a.downgradedTo a = false := by
  cases a <;> rfl

end Access

/-- The spelling under which a record was declared. -/
inductive RecordKind where
  | structRecord
  | classRecord
  | unionRecord
deriving DecidableEq

/-- A data member; the offset is in bits from the start of the record. -/
structure Field where
  name : String
  typeId : String
  offset : UInt64
  access : Access
deriving DecidableEq

structure Base where
  typeId : String
  isVirtual : Bool
  access : Access
deriving DecidableEq

/-- What a slot of a virtual table holds. -/
inductive SlotKind where
  | vcallOffset
  | vbaseOffset
  | offsetToTop
  | rtti
  | functionPointer
  | completeDtorPointer
  | deletingDtorPointer
  | unusedFunctionPointer
deriving DecidableEq

/-- One slot of a virtual table; offsets have an empty name. -/
structure Slot where
  kind : SlotKind
  name : String
  value : Int64
  isPure : Bool
deriving DecidableEq

/-- The layout of a struct, class or union.  All lists are in declaration order. -/
structure RecordLayout where
  fields : List Field
  bases : List Base
  vtable : List Slot
  kind : RecordKind
  isAnonymous : Bool
  templateArgs : List String
  access : Access
deriving DecidableEq

/-- A named value of an enumeration. -/
structure Enumerator where
  name : String
  value : Int64
deriving DecidableEq

/-- The values of an enumeration and the type that stores them. -/
structure EnumLayout where
  underlying : String
  enumerators : List Enumerator
  access : Access
deriving DecidableEq

/-- The qualifiers of a qualified type. -/
structure Qualifiers where
  isConst : Bool
  isVolatile : Bool
  isRestricted : Bool
deriving DecidableEq

/-- How a built-in type reads its bits. -/
structure Builtin where
  isUnsigned : Bool
  isIntegral : Bool
deriving DecidableEq

/-- A parameter of a function. -/
structure Param where
  typeId : String
  hasDefault : Bool
  isThis : Bool
deriving DecidableEq

/-- What a caller of a function has to agree on. -/
structure Signature where
  returns : String
  params : List Param
  templateArgs : List String
deriving DecidableEq

/-- What a type is, with the data of its kind. -/
inductive Shape where
  | record (layout : RecordLayout)
  | enum (layout : EnumLayout)
  | pointer
  | lvalueReference
  | rvalueReference
  | qualified (qualifiers : Qualifiers)
  | array
  | builtin (reading : Builtin)
  | function (signature : Signature)
deriving DecidableEq

/-- The kind of a type without its data. -/
inductive TypeKind where
  | record
  | enum
  | pointer
  | lvalueReference
  | rvalueReference
  | qualified
  | array
  | builtin
  | function
deriving DecidableEq

/-- The spelling of a kind in listings. -/
def TypeKind.text : TypeKind → String
  | record => "record"
  | enum => "enum"
  | pointer => "pointer"
  | lvalueReference => "lvalue_reference"
  | rvalueReference => "rvalue_reference"
  | qualified => "qualified"
  | array => "array"
  | builtin => "builtin"
  | function => "function"

def Shape.kind : Shape → TypeKind
  | record _ => .record
  | enum _ => .enum
  | pointer => .pointer
  | lvalueReference => .lvalueReference
  | rvalueReference => .rvalueReference
  | qualified _ => .qualified
  | array => .array
  | builtin _ => .builtin
  | function _ => .function

/-- A node of the type graph.

`id` is what others refer to; `linkKey` is what two versions of a library share.
The two are mostly equal, and differ for a type that is defined more than once.
`target` is the pointee, element or unqualified type, where there is one.
`sourceFile` says where the type was found and is never compared. -/
structure TypeDecl where
  id : String
  linkKey : String
  sourceFile : String
  name : String
  target : String
  size : UInt64
  alignment : UInt32
  shape : Shape
deriving DecidableEq

namespace TypeDecl

def kind (t : TypeDecl) : TypeKind := t.shape.kind

/-- Whether two types take the same room. -/
def sameRoom (s t : TypeDecl) : Bool := s.size == t.size && s.alignment == t.alignment

theorem sameRoom_eq_true_iff {s t : TypeDecl} :
    s.sameRoom t = true ↔ s.size = t.size ∧ s.alignment = t.alignment := by
  rw [sameRoom, Bool.and_eq_true, beq_iff_eq, beq_iff_eq]

theorem sameRoom_eq_false_iff {s t : TypeDecl} :
    s.sameRoom t = false ↔ s.size ≠ t.size ∨ s.alignment ≠ t.alignment := by
  rw [sameRoom, Bool.and_eq_false_iff, beq_eq_false_iff_ne, beq_eq_false_iff_ne]

/-- The layout of a record; nothing for another kind. -/
def record? (t : TypeDecl) : Option RecordLayout :=
  match t.shape with
  | .record layout => some layout
  | _ => none

/-- The layout of an enumeration; nothing for another kind. -/
def enum? (t : TypeDecl) : Option EnumLayout :=
  match t.shape with
  | .enum layout => some layout
  | _ => none

theorem record?_eq_some_iff {t : TypeDecl} {a : RecordLayout} :
    t.record? = some a ↔ t.shape = .record a := by
  unfold record?
  cases t.shape <;> simp

theorem enum?_eq_some_iff {t : TypeDecl} {a : EnumLayout} :
    t.enum? = some a ↔ t.shape = .enum a := by
  unfold enum?
  cases t.shape <;> simp

/-- Enumerations, and records with a name of their own: the types whose layout the
author of a library decides. -/
def isUserDefined (t : TypeDecl) : Bool :=
  match t.shape with
  | .record layout => !layout.isAnonymous
  | .enum _ => true
  | _ => false

end TypeDecl

/-- An exported function. -/
structure FunctionDecl where
  linkKey : String
  sourceFile : String
  name : String
  signature : Signature
  access : Access
deriving DecidableEq

/-- An exported global variable. -/
structure GlobalDecl where
  linkKey : String
  sourceFile : String
  name : String
  typeId : String
  access : Access
deriving DecidableEq

/-- How firmly the dynamic linker binds a symbol. -/
inductive Binding where
  | global
  | weak
deriving DecidableEq

/-- An exported dynamic symbol. -/
structure Symbol where
  name : String
  binding : Binding
deriving DecidableEq

/-- Whether another definition may replace the symbol. -/
def Symbol.isWeak (s : Symbol) : Bool := s.binding == .weak

end AbiCompat
