/-
# The report on a comparison

Every finding has its place in exactly one of twenty lists, by what it is, whether it came, went or
changed, and whether something exported reaches it.

A report is made from an outcome in one go, with the entries in the order of what was
found.  Beside the lists it has the name and the architecture of the library, and the verdict as
names and as a number.
-/
import AbiCompat.Compare.Outcome
import AbiCompat.Report.Entry

namespace AbiCompat

/-- The report on a comparison. -/
structure Report where
  libName : String
  arch : String
  status : List String
  statusCode : UInt32
  functionsRemoved : List FunctionDecl
  functionsAdded : List FunctionDecl
  globalsRemoved : List GlobalDecl
  globalsAdded : List GlobalDecl
  functionChanges : List FunctionChangeEntry
  globalChanges : List GlobalChangeEntry
  recordChanges : List RecordChangeEntry
  unreferencedRecordChanges : List RecordChangeEntry
  recordsRemoved : List RecordEntry
  recordsAdded : List RecordEntry
  enumChanges : List EnumChangeEntry
  enumExtensions : List EnumChangeEntry
  unreferencedEnumChanges : List EnumChangeEntry
  unreferencedEnumExtensions : List EnumChangeEntry
  enumsRemoved : List EnumEntry
  enumsAdded : List EnumEntry
  functionSymbolsRemoved : List Symbol
  objectSymbolsRemoved : List Symbol
  functionSymbolsAdded : List Symbol
  objectSymbolsAdded : List Symbol
deriving DecidableEq

namespace Outcome

def functionChange? (o : Outcome) (f : Finding) : Option FunctionChangeEntry :=
  match f.change with
  | .function old new => some ⟨f.pathText, old.shown o.old, new.shown o.new⟩
  | _ => none

def globalChange? (o : Outcome) (f : Finding) : Option GlobalChangeEntry :=
  match f.change with
  | .global old new => some ⟨f.pathText, old.shown o.old, new.shown o.new⟩
  | _ => none

def recordChange? (o : Outcome) (reach : Reach) (f : Finding) : Option RecordChangeEntry :=
  match f.change with
  | .record c => if f.reach = reach then some (.of o.old o.new f.pathText c) else none
  | _ => none

/-- The entry of a finding that is a change of an enumeration of this reach: one with new
values only, or another one. -/
def enumChange? (reach : Reach) (isExtension : Bool) (f : Finding) : Option EnumChangeEntry :=
  match f.change with
  | .enum c =>
    if f.reach = reach ∧ c.isExtension = isExtension then some (.of f.pathText c) else none
  | _ => none

/-- The entry of a function that came or went. -/
def loneFunction? (o : Outcome) (d : Direction) (c : LoneChange) : Option FunctionDecl :=
  match c.entity with
  | .function f => if c.direction = d then some (f.shown (o.holder d)) else none
  | _ => none

/-- The entry of a global variable that came or went. -/
def loneGlobal? (o : Outcome) (d : Direction) (c : LoneChange) : Option GlobalDecl :=
  match c.entity with
  | .global g => if c.direction = d then some (g.shown (o.holder d)) else none
  | _ => none

/-- The entry of a record that came or went. -/
def loneRecord? (o : Outcome) (d : Direction) (c : LoneChange) : Option RecordEntry :=
  match c.entity with
  | .record t layout => if c.direction = d then some (.of (o.holder d) t layout) else none
  | _ => none

/-- The entry of an enumeration that came or went. -/
def loneEnum? (o : Outcome) (d : Direction) (c : LoneChange) : Option EnumEntry :=
  match c.entity with
  | .enum t layout => if c.direction = d then some (.of (o.holder d) t layout) else none
  | _ => none

/-- The entry of a symbol of this kind that came or went. -/
def loneSymbol? (kind : SymbolKind) (d : Direction) (c : SymbolChange) : Option Symbol :=
  if c.kind = kind ∧ c.direction = d then some c.symbol else none

end Outcome

namespace Report

open Outcome in
def of (o : Outcome) (libName arch : String) : Report :=
  { libName, arch
    status := o.verdict.names
    statusCode := o.verdict.bits
    functionsRemoved := o.lone.filterMap (loneFunction? o .removed)
    functionsAdded := o.lone.filterMap (loneFunction? o .added)
    globalsRemoved := o.lone.filterMap (loneGlobal? o .removed)
    globalsAdded := o.lone.filterMap (loneGlobal? o .added)
    functionChanges := o.findings.filterMap (functionChange? o)
    globalChanges := o.findings.filterMap (globalChange? o)
    recordChanges := o.findings.filterMap (recordChange? o .referenced)
    unreferencedRecordChanges := o.findings.filterMap (recordChange? o .unreferenced)
    recordsRemoved := o.lone.filterMap (loneRecord? o .removed)
    recordsAdded := o.lone.filterMap (loneRecord? o .added)
    enumChanges := o.findings.filterMap (enumChange? .referenced false)
    enumExtensions := o.findings.filterMap (enumChange? .referenced true)
    unreferencedEnumChanges := o.findings.filterMap (enumChange? .unreferenced false)
    unreferencedEnumExtensions := o.findings.filterMap (enumChange? .unreferenced true)
    enumsRemoved := o.lone.filterMap (loneEnum? o .removed)
    enumsAdded := o.lone.filterMap (loneEnum? o .added)
    functionSymbolsRemoved := o.symbols.filterMap (loneSymbol? .function .removed)
    objectSymbolsRemoved := o.symbols.filterMap (loneSymbol? .object .removed)
    functionSymbolsAdded := o.symbols.filterMap (loneSymbol? .function .added)
    objectSymbolsAdded := o.symbols.filterMap (loneSymbol? .object .added) }

/-- The lists of a report by name, with their lengths, in the order of the document. -/
def counts (r : Report) : List (String × Nat) :=
  [("functions_removed", r.functionsRemoved.length),
    ("functions_added", r.functionsAdded.length),
    ("global_vars_removed", r.globalsRemoved.length),
    ("global_vars_added", r.globalsAdded.length),
    ("function_diffs", r.functionChanges.length),
    ("global_var_diffs", r.globalChanges.length),
    ("record_type_diffs", r.recordChanges.length),
    ("unreferenced_record_type_diffs", r.unreferencedRecordChanges.length),
    ("unreferenced_record_types_removed", r.recordsRemoved.length),
    ("unreferenced_record_types_added", r.recordsAdded.length),
    ("enum_type_diffs", r.enumChanges.length),
    ("enum_type_extension_diffs", r.enumExtensions.length),
    ("unreferenced_enum_type_diffs", r.unreferencedEnumChanges.length),
    ("unreferenced_enum_type_extension_diffs", r.unreferencedEnumExtensions.length),
    ("unreferenced_enum_types_removed", r.enumsRemoved.length),
    ("unreferenced_enum_types_added", r.enumsAdded.length),
    ("removed_elf_functions", r.functionSymbolsRemoved.length),
    ("removed_elf_objects", r.objectSymbolsRemoved.length),
    ("added_elf_functions", r.functionSymbolsAdded.length),
    ("added_elf_objects", r.objectSymbolsAdded.length)]

/-- The lists that are not empty, with their lengths. -/
def summary (r : Report) : List (String × Nat) := r.counts.filter (fun c => c.2 != 0)

end Report

end AbiCompat
