/-
# The interface of one library version

Five catalogues: the type graph by type id, functions and global variables by linker set key, and
the two lists of dynamic symbols by name.  An interface is filled entity by entity with
`Interface.add`, and only read afterwards.

An entity that is there already may come again, if it is the same in all its parts; a different one
under its key is a conflict, and the interface stays as it was.  Types may share a linker set key,
and names may be in more than one collection.
-/
import AbiCompat.Catalog
import AbiCompat.Interface.Decl

namespace AbiCompat

/-- The five collections of an interface; keys are unique within one of them. -/
inductive Collection where
  | types
  | functions
  | globals
  | functionSymbols
  | objectSymbols
deriving DecidableEq

/-- What one member of a collection is called. -/
def Collection.memberText : Collection → String
  | types => "type"
  | functions => "function"
  | globals => "global variable"
  | functionSymbols => "ELF function"
  | objectSymbols => "ELF object"

/-- One thing that an interface can hold. -/
inductive Entity where
  | type (t : TypeDecl)
  | function (f : FunctionDecl)
  | global (v : GlobalDecl)
  | functionSymbol (s : Symbol)
  | objectSymbol (s : Symbol)
deriving DecidableEq

namespace Entity

/-- The collection that holds the entity. -/
def collection : Entity → Collection
  | type _ => .types
  | function _ => .functions
  | global _ => .globals
  | functionSymbol _ => .functionSymbols
  | objectSymbol _ => .objectSymbols

/-- The key the entity is stored under. -/
def key : Entity → String
  | type t => t.id
  | function f => f.linkKey
  | global v => v.linkKey
  | functionSymbol s => s.name
  | objectSymbol s => s.name

end Entity

/-- Two different entities claim one key of one collection. -/
structure KeyConflict where
  collection : Collection
  key : String
deriving DecidableEq

/-- The wording of a conflict. -/
def KeyConflict.message (c : KeyConflict) : String :=
  s!"duplicate {c.collection.memberText} key `{c.key}`: two different entities share it"

/-- Everything that one version of a library exposes. -/
structure Interface where
  types : Catalog TypeDecl.id
  functions : Catalog FunctionDecl.linkKey
  globals : Catalog GlobalDecl.linkKey
  functionSymbols : Catalog Symbol.name
  objectSymbols : Catalog Symbol.name
deriving DecidableEq

namespace Interface

/-- The interface of a library that exposes nothing. -/
def empty : Interface := ⟨.empty, .empty, .empty, .empty, .empty⟩

instance : Inhabited Interface := ⟨empty⟩

/-- Enters an item under its key.  An item that is there already changes nothing; a
different one under the key is a conflict. -/
def enter {α : Type} [DecidableEq α] {key : α → String} (collection : Collection)
    (c : Catalog key) (x : α) : Except KeyConflict (Catalog key) :=
  match c.find? (key x) with
  | none => .ok (c.insert x)
  | some y => if y = x then .ok c else .error ⟨collection, key x⟩

/-- What is found after entering an item: the item under its key, everything else as
before. -/
theorem find?_enter {α : Type} [DecidableEq α] {key : α → String} {collection : Collection}
    {c c' : Catalog key} {x : α} (h : enter collection c x = .ok c') (k : String) :
    c'.find? k = if key x = k then some x else c.find? k := by
  simp only [enter] at h
  split at h
  · cases h
    exact Catalog.find?_insert c x k
  · rename_i y found
    split at h
    · rename_i same
      cases h
      subst same
      split
      · rename_i e
        exact e ▸ found
      · rfl
    · cases h

theorem enter_eq_error_iff {α : Type} [DecidableEq α] {key : α → String}
    {collection : Collection} {c : Catalog key} {x : α} {e : KeyConflict} :
    enter collection c x = .error e ↔
      (∃ y, c.find? (key x) = some y ∧ y ≠ x) ∧ e = ⟨collection, key x⟩ := by
  simp only [enter]
  split
  · rename_i absent
    simp [absent]
  · rename_i y found
    split
    · rename_i same
      simp [found, same]
    · rename_i differs
      constructor
      · intro h
        cases h
        exact ⟨⟨y, found, differs⟩, rfl⟩
      · rintro ⟨_, rfl⟩
        rfl

/-- Adds one entity to its collection. -/
def add (m : Interface) : Entity → Except KeyConflict Interface
  | .type t => (enter .types m.types t).map fun c => { m with types := c }
  | .function f => (enter .functions m.functions f).map fun c => { m with functions := c }
  | .global v => (enter .globals m.globals v).map fun c => { m with globals := c }
  | .functionSymbol s =>
    (enter .functionSymbols m.functionSymbols s).map fun c => { m with functionSymbols := c }
  | .objectSymbol s =>
    (enter .objectSymbols m.objectSymbols s).map fun c => { m with objectSymbols := c }

/-- Adds entities in order, up to the first conflict. -/
def addAll (m : Interface) (es : List Entity) : Except KeyConflict Interface :=
  es.foldlM add m

/-- The interface that holds the listed entities. -/
def ofEntities (es : List Entity) : Except KeyConflict Interface := empty.addAll es

/-- All entities, collection by collection, each in key order. -/
def entities (m : Interface) : List Entity :=
  m.types.items.map .type ++ m.functions.items.map .function ++ m.globals.items.map .global
    ++ m.functionSymbols.items.map .functionSymbol ++ m.objectSymbols.items.map .objectSymbol

def type? (m : Interface) (id : String) : Option TypeDecl := m.types.find? id

/-- The name shown for an id that no type of the interface has. -/
def unexportedName : String := "type-unexported"

def typeName (m : Interface) (id : String) : String :=
  match m.type? id with
  | some t => t.name
  | none => unexportedName

/-- The types whose layout the author of the library decides, in order of their ids. -/
def userDefined (m : Interface) : List TypeDecl := m.types.items.filter TypeDecl.isUserDefined

theorem mem_userDefined {m : Interface} {select : TypeDecl → Bool} {t : TypeDecl} :
    t ∈ m.userDefined.filter select ↔
      t ∈ m.types.items ∧ t.isUserDefined = true ∧ select t = true := by
  rw [List.mem_filter, userDefined, List.mem_filter, and_assoc]

theorem userDefined_ascending (m : Interface) {select : TypeDecl → Bool} :
    (m.userDefined.filter select).Pairwise fun x y => x.id < y.id :=
  (m.types.ascending.filter _).filter _

/-- How many entities there are. -/
def size (m : Interface) : Nat :=
  m.types.size + m.functions.size + m.globals.size + m.functionSymbols.size
    + m.objectSymbols.size

/-- Whether there is no entity. -/
def isEmpty (m : Interface) : Bool := m.size == 0

/-- Whether no dynamic symbol is exported. -/
def hasNoSymbols (m : Interface) : Bool := m.functionSymbols.isEmpty && m.objectSymbols.isEmpty

end Interface

end AbiCompat
