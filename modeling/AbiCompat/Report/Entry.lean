/-
# Entries of a report

An entry shows a declaration with the name of each type in the place of its id, as the interface
that holds the declaration names it.  So an entry can be read without either interface.

An entry on a change of a function or a global variable shows both declarations; one on a change of
a record or an enumeration shows the parts that changed, with both sides.  That these are what the
two declarations are is proved in `Proofs/Report/Contents`.
-/
import AbiCompat.Compare.Finding

namespace AbiCompat

/-! ## Declarations with names for ids -/

def Param.shown (m : Interface) (p : Param) : Param := { p with typeId := m.typeName p.typeId }

/-- A signature with the names of its types. -/
def Signature.shown (m : Interface) (s : Signature) : Signature :=
  { returns := m.typeName s.returns
    params := s.params.map (Param.shown m)
    templateArgs := s.templateArgs.map m.typeName }

/-- A function with the names of its types. -/
def FunctionDecl.shown (m : Interface) (f : FunctionDecl) : FunctionDecl :=
  { f with signature := f.signature.shown m }

/-- A global variable with the name of its type. -/
def GlobalDecl.shown (m : Interface) (g : GlobalDecl) : GlobalDecl :=
  { g with typeId := m.typeName g.typeId }

def Field.shown (m : Interface) (f : Field) : Field := { f with typeId := m.typeName f.typeId }

def Base.shown (m : Interface) (b : Base) : Base := { b with typeId := m.typeName b.typeId }

/-! ## Entries of their own -/

structure RecordEntry where
  name : String
  linkKey : String
  sourceFile : String
  size : UInt64
  alignment : UInt32
  kind : RecordKind
  access : Access
  fields : List Field
  bases : List Base
  vtable : List Slot
  templateArgs : List String
deriving DecidableEq

def RecordEntry.of (m : Interface) (t : TypeDecl) (r : RecordLayout) : RecordEntry :=
  { name := t.name
    linkKey := t.linkKey
    sourceFile := t.sourceFile
    size := t.size
    alignment := t.alignment
    kind := r.kind
    access := r.access
    fields := r.fields.map (Field.shown m)
    bases := r.bases.map (Base.shown m)
    vtable := r.vtable
    templateArgs := r.templateArgs.map m.typeName }

structure EnumEntry where
  name : String
  linkKey : String
  sourceFile : String
  size : UInt64
  alignment : UInt32
  underlying : String
  enumerators : List Enumerator
  access : Access
deriving DecidableEq

def EnumEntry.of (m : Interface) (t : TypeDecl) (e : EnumLayout) : EnumEntry :=
  { name := t.name
    linkKey := t.linkKey
    sourceFile := t.sourceFile
    size := t.size
    alignment := t.alignment
    underlying := m.typeName e.underlying
    enumerators := e.enumerators
    access := e.access }

/-- A change of a record: what is absent or empty did not change. -/
structure RecordChangeEntry where
  name : String
  linkKey : String
  path : String
  room : Option RoomChange
  access : Option (Access × Access)
  vtable : Option (List Slot × List Slot)
  bases : Option (List Base × List Base)
  fieldsChanged : List (Field × Field)
  fieldsRemoved : List Field
  fieldsAdded : List Field
deriving DecidableEq

/-- The entry of a change of a record that was met on this path. -/
def RecordChangeEntry.of (old new : Interface) (path : String) (c : RecordChange) :
    RecordChangeEntry :=
  { name := c.old.name
    linkKey := c.old.linkKey
    path
    room := c.room
    access := c.access
    vtable := if c.vtableChanged then some (c.oldLayout.vtable, c.newLayout.vtable) else none
    bases :=
      if c.basesChanged then
        some (c.oldLayout.bases.map (Base.shown old), c.newLayout.bases.map (Base.shown new))
      else none
    fieldsChanged := c.fieldsChanged.map fun p => (p.1.shown old, p.2.shown new)
    fieldsRemoved := c.fieldsRemoved.map (Field.shown old)
    fieldsAdded := c.fieldsAdded.map (Field.shown new) }

structure EnumChangeEntry where
  name : String
  linkKey : String
  path : String
  underlying : Option (String × String)
  added : List Enumerator
  removed : List Enumerator
  changed : List (Enumerator × Enumerator)
deriving DecidableEq

/-- The entry of a change of an enumeration that was met on this path. -/
def EnumChangeEntry.of (path : String) (c : EnumChange) : EnumChangeEntry :=
  { name := c.old.name
    linkKey := c.old.linkKey
    path
    underlying := c.underlying
    added := c.added
    removed := c.removed
    changed := c.changed }

structure FunctionChangeEntry where
  path : String
  old : FunctionDecl
  new : FunctionDecl
deriving DecidableEq

structure GlobalChangeEntry where
  path : String
  old : GlobalDecl
  new : GlobalDecl
deriving DecidableEq

end AbiCompat
