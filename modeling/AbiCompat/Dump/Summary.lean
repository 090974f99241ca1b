/-
# Counting what a dump holds

A count for each kind of types that occurs, in the order of the names of the kinds, and one for
each of the other four collections.  The summary is told as lines or as a JSON value.
-/
import AbiCompat.Interface.Basic
import AbiCompat.Json.Basic

namespace AbiCompat.Dump

/-- The kinds of types in the order of their names. -/
def kindsByName : List TypeKind :=
  [.array, .builtin, .enum, .function, .lvalueReference, .pointer, .qualified, .record,
    .rvalueReference]

/-- How much of everything a dump holds. -/
structure Summary where
  path : String
  sha256 : String
  /-- The kinds that occur, with their counts, in the order of their names. -/
  types : List (String × Nat)
  functions : Nat
  globals : Nat
  functionSymbols : Nat
  objectSymbols : Nat
deriving DecidableEq

/-- How many types are of a kind. -/
def countKind (m : Interface) (kind : TypeKind) : Nat :=
  (m.types.items.filter (fun t => t.kind == kind)).length

namespace Summary

/-- The summary of an interface that was read from a file. -/
def of (path sha256 : String) (m : Interface) : Summary :=
  { path, sha256
    types := (kindsByName.map fun kind => (kind.text, countKind m kind)).filter (·.2 != 0)
    functions := m.functions.size
    globals := m.globals.size
    functionSymbols := m.functionSymbols.size
    objectSymbols := m.objectSymbols.size }

/-- Named counts as an object. -/
def countsJson (counts : List (String × Nat)) : Json :=
  .object (counts.map fun c => (c.1, .ofNat c.2))

def toJson (s : Summary) : Json :=
  .object
    [("path", .string s.path), ("sha256", .string s.sha256), ("types", countsJson s.types),
      ("functions", .ofNat s.functions), ("global_vars", .ofNat s.globals),
      ("elf_functions", .ofNat s.functionSymbols), ("elf_objects", .ofNat s.objectSymbols)]

/-- The summary as lines of text. -/
def lines (s : Summary) : List String :=
  [s!"Dump: {s.path}", s!"  SHA-256: {s.sha256}", "  Types:"]
    ++ (if s.types.isEmpty then ["    (none)"]
      else s.types.map fun c => s!"    - {c.1}: {c.2}")
    ++ [s!"  Functions: {s.functions}", s!"  Global vars: {s.globals}",
      s!"  ELF functions: {s.functionSymbols}", s!"  ELF objects: {s.objectSymbols}"]

end Summary

end AbiCompat.Dump
