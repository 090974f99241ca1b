/-
# Comparing two versions of a library

Exported names are matched by their linker set keys and compared on one walk, so that each pair of
types is looked at once.  Names and symbols of one side only are listed beside the findings of the
walk.

1. The functions that both versions have are compared, in the order of their keys, and then the
   global variables.
2. If all types are to be compared, the records and enumerations of one key are compared after
   that, on the same walk; what is found now is out of reach of exported names.
3. What came or went is listed, kind by kind, as far as the policy does not leave it out and the
   dynamic symbols do not excuse it.
4. The verdict is made of all that was found.
-/
import AbiCompat.Compare.Types
import AbiCompat.Compare.Verdict

namespace AbiCompat

/-- Everything that a comparison found. -/
structure Outcome where
  old : Interface
  new : Interface
  verdict : Verdict
  findings : List Finding
  lone : List LoneChange
  symbols : List SymbolChange

/-- Whether nothing was found. -/
def Outcome.isEmpty (o : Outcome) : Bool :=
  o.findings.isEmpty && o.lone.isEmpty && o.symbols.isEmpty

/-- The version that has what came or went. -/
def Outcome.holder (o : Outcome) : Direction → Interface
  | .removed => o.old
  | .added => o.new

namespace Scope

/-- The version that has what came or went. -/
def holder (scope : Scope) : Direction → Interface
  | .removed => scope.old
  | .added => scope.new

/-- The version that lacks what came or went. -/
def other (scope : Scope) : Direction → Interface
  | .removed => scope.new
  | .added => scope.old

/-! ## What one version lacks -/

/-- Whether a key has the position of a declaration in it; such keys are not stable. -/
def hasPosition (key : String) : Bool := Text.occurs [' ', 'a', 't', ' '] key.toList

/-- Whether a one-sided name is listed.  A name whose symbol the other version still has
is not: it may be declared nowhere and implemented by hand. -/
def listsName (scope : Scope) (own others : Catalog Symbol.name) (key : String) : Bool :=
  !scope.policy.ignores key && !others.contains key
    && !(scope.policy.weakMayChange && (own.find? key).any Symbol.isWeak) && !hasPosition key

/-- The functions that came or went. -/
def loneFunctions (scope : Scope) (d : Direction) : List LoneChange :=
  let own := scope.holder d
  let others := scope.other d
  ((own.functions.without others.functions).filter
    (fun f => scope.listsName own.functionSymbols others.functionSymbols f.linkKey)).map
    (fun f => ⟨d, .function f⟩)

/-- The global variables that came or went. -/
def loneGlobals (scope : Scope) (d : Direction) : List LoneChange :=
  let own := scope.holder d
  let others := scope.other d
  ((own.globals.without others.globals).filter
    (fun g => scope.listsName own.objectSymbols others.objectSymbols g.linkKey)).map
    (fun g => ⟨d, .global g⟩)

def symbolsOf (m : Interface) : SymbolKind → Catalog Symbol.name
  | .function => m.functionSymbols
  | .object => m.objectSymbols

/-- The symbols that came or went. -/
def symbolChanges (scope : Scope) (kind : SymbolKind) (d : Direction) : List SymbolChange :=
  (((symbolsOf (scope.holder d) kind).without (symbolsOf (scope.other d) kind)).filter
    (fun s => !(scope.policy.weakMayChange && s.isWeak))).map (fun s => ⟨d, kind, s⟩)

/-! ## User-defined types by their keys -/

/-- The named records by linker set key; of several with one key the one with the last id. -/
def recordsByKey (m : Interface) : Catalog TypeDecl.linkKey :=
  .ofList (m.userDefined.filter (fun t => t.record?.isSome))

/-- The enumerations by linker set key; of several with one key the one with the last id. -/
def enumsByKey (m : Interface) : Catalog TypeDecl.linkKey :=
  .ofList (m.userDefined.filter (fun t => t.enum?.isSome))

/-- The types of one version whose keys the other one lacks. -/
def loneTypes (scope : Scope) (byKey : Interface → Catalog TypeDecl.linkKey) (d : Direction) :
    List TypeDecl :=
  ((byKey (scope.holder d)).without (byKey (scope.other d))).filter
    (fun t => !scope.policy.ignores t.linkKey && !hasPosition t.linkKey)

/-- The records that came or went. -/
def loneRecords (scope : Scope) (d : Direction) : List LoneChange :=
  (scope.loneTypes recordsByKey d).filterMap
    (fun t => t.record?.map fun layout => ⟨d, .record t layout⟩)

/-- The enumerations that came or went. -/
def loneEnums (scope : Scope) (d : Direction) : List LoneChange :=
  (scope.loneTypes enumsByKey d).filterMap
    (fun t => t.enum?.map fun layout => ⟨d, .enum t layout⟩)

/-- All entities that came or went. -/
def loneChanges (scope : Scope) : List LoneChange :=
  let exported := scope.loneFunctions .removed ++ scope.loneFunctions .added
    ++ scope.loneGlobals .removed ++ scope.loneGlobals .added
  if scope.policy.checkAll then
    exported ++ scope.loneRecords .removed ++ scope.loneRecords .added
      ++ scope.loneEnums .removed ++ scope.loneEnums .added
  else exported

/-- All symbols that came or went. -/
def allSymbolChanges (scope : Scope) : List SymbolChange :=
  scope.symbolChanges .function .removed ++ scope.symbolChanges .function .added
    ++ scope.symbolChanges .object .removed ++ scope.symbolChanges .object .added

/-! ## What both versions have -/

/-- Runs a comparison for each pair whose key is not ignored. -/
def walkPairs {α : Type} (scope : Scope) (key : α → String)
    (compare : α → α → Walking Difference) : List (α × α) → Walking Unit
  | [] => return ()
  | (x, y) :: rest => do
    if !scope.policy.ignores (key x) then
      let _ ← compare x y
    scope.walkPairs key compare rest

/-- Compares the exported names. -/
def walkExports (scope : Scope) : Walking Unit := do
  scope.walkPairs FunctionDecl.linkKey (scope.compareFunctions .referenced)
    (scope.old.functions.common scope.new.functions)
  scope.walkPairs GlobalDecl.linkKey (scope.compareGlobals .referenced)
    (scope.old.globals.common scope.new.globals)

/-- Compares the types that the author of the library declared.  What exported names
reach was looked at before, so that findings here are about other types. -/
def walkUserTypes (scope : Scope) : Walking Unit := do
  scope.walkPairs TypeDecl.linkKey (scope.compareUserTypes .unreferenced)
    ((recordsByKey scope.old).common (recordsByKey scope.new))
  scope.walkPairs TypeDecl.linkKey (scope.compareUserTypes .unreferenced)
    ((enumsByKey scope.old).common (enumsByKey scope.new))

def walk (scope : Scope) : Walking Unit := do
  scope.walkExports
  if scope.policy.checkAll then scope.walkUserTypes

end Scope

/-- Compares two versions of a library under a policy. -/
def compare (old new : Interface) (policy : Policy) : Outcome :=
  let scope : Scope := ⟨old, new, policy⟩
  let ((), walked) := scope.walk.run .start
  let lone := scope.loneChanges
  let symbols := scope.allSymbolChanges
  { old, new
    verdict := .ofFindings walked.findings lone symbols
    findings := walked.findings
    lone, symbols }

end AbiCompat
