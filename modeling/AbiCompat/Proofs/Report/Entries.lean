/-
# A report has one entry for each thing that was found

Under each of its twenty headings a report lists what belongs there: the heading of a thing is told
by what it is, whether it came, went or changed, whether something exported reaches it, and whether
it is an extension.

## What is proved

Nothing is left out and nothing is listed twice, and the order of what was found is kept: the list
under a heading is the list of the entries of what belongs there.  The lengths in the summary add
up to the number of things.  The summary and the document name the same headings, those under which
something is listed, and in the document four members about the comparison as a whole come before
them.

## How

`Heading` is the type of all headings, with `Report.under` for the list of a report under each of
them.  What was found is one type as well (`Matter`), with its heading and its entry.  So the main
result is one statement for all twenty lists, and the case distinction is made once, in `under_of`.

## What is not

What an entry tells of the thing that it is for is the subject of `Contents`.
-/
import AbiCompat.Proofs.Json.Grammar
import AbiCompat.Proofs.Listings
import AbiCompat.Report.Document
import Mathlib.Algebra.BigOperators.Group.List.Basic
import Mathlib.Algebra.GroupWithZero.Nat

namespace AbiCompat

/-- Something that a comparison found. -/
inductive Matter where
  | finding (f : Finding)
  | lone (c : LoneChange)
  | symbol (c : SymbolChange)

/-- All that a comparison found. -/
def Outcome.found (o : Outcome) : List Matter :=
  o.findings.map .finding ++ o.lone.map .lone ++ o.symbols.map .symbol

namespace Report

/-! ## Headings -/

inductive Heading where
  | functionsRemoved
  | functionsAdded
  | globalsRemoved
  | globalsAdded
  | functionChanges
  | globalChanges
  | recordChanges
  | unreferencedRecordChanges
  | recordsRemoved
  | recordsAdded
  | enumChanges
  | enumExtensions
  | unreferencedEnumChanges
  | unreferencedEnumExtensions
  | enumsRemoved
  | enumsAdded
  | functionSymbolsRemoved
  | objectSymbolsRemoved
  | functionSymbolsAdded
  | objectSymbolsAdded
deriving DecidableEq

namespace Heading

/-- All headings, in the order of the document. -/
def all : List Heading :=
  [.functionsRemoved, .functionsAdded, .globalsRemoved, .globalsAdded, .functionChanges,
    .globalChanges, .recordChanges, .unreferencedRecordChanges, .recordsRemoved, .recordsAdded,
    .enumChanges, .enumExtensions, .unreferencedEnumChanges, .unreferencedEnumExtensions,
    .enumsRemoved, .enumsAdded, .functionSymbolsRemoved, .objectSymbolsRemoved,
    .functionSymbolsAdded, .objectSymbolsAdded]

/-- The name of the list in a document. -/
def name : Heading → String
  | .functionsRemoved => "functions_removed"
  | .functionsAdded => "functions_added"
  | .globalsRemoved => "global_vars_removed"
  | .globalsAdded => "global_vars_added"
  | .functionChanges => "function_diffs"
  | .globalChanges => "global_var_diffs"
  | .recordChanges => "record_type_diffs"
  | .unreferencedRecordChanges => "unreferenced_record_type_diffs"
  | .recordsRemoved => "unreferenced_record_types_removed"
  | .recordsAdded => "unreferenced_record_types_added"
  | .enumChanges => "enum_type_diffs"
  | .enumExtensions => "enum_type_extension_diffs"
  | .unreferencedEnumChanges => "unreferenced_enum_type_diffs"
  | .unreferencedEnumExtensions => "unreferenced_enum_type_extension_diffs"
  | .enumsRemoved => "unreferenced_enum_types_removed"
  | .enumsAdded => "unreferenced_enum_types_added"
  | .functionSymbolsRemoved => "removed_elf_functions"
  | .objectSymbolsRemoved => "removed_elf_objects"
  | .functionSymbolsAdded => "added_elf_functions"
  | .objectSymbolsAdded => "added_elf_objects"

/-- One of two headings for what went and what came. -/
def pick (d : Direction) (removals additions : Heading) : Heading :=
  match d with
  | .removed => removals
  | .added => additions

end Heading

/-- An entry under some heading. -/
inductive Item where
  | function (f : FunctionDecl)
  | global (g : GlobalDecl)
  | functionChange (c : FunctionChangeEntry)
  | globalChange (c : GlobalChangeEntry)
  | recordChange (c : RecordChangeEntry)
  | record (r : RecordEntry)
  | enumChange (c : EnumChangeEntry)
  | enum (e : EnumEntry)
  | symbol (s : Symbol)

def Item.toJson : Item → Json
  | function f => functionSchema.toJson (functionRow f)
  | global g => globalSchema.toJson (globalRow g)
  | functionChange c => functionChangeSchema.toJson (functionChangeRow c)
  | globalChange c => globalChangeSchema.toJson (globalChangeRow c)
  | recordChange c => recordChangeSchema.toJson (recordChangeRow c)
  | record r => recordSchema.toJson (recordRow r)
  | enumChange c => enumChangeSchema.toJson (enumChangeRow c)
  | enum e => enumSchema.toJson (enumRow e)
  | symbol s => symbolSchema.toJson (symbolRow s)

/-- What a report lists under a heading. -/
def under (r : Report) : Heading → List Item
  | .functionsRemoved => r.functionsRemoved.map .function
  | .functionsAdded => r.functionsAdded.map .function
  | .globalsRemoved => r.globalsRemoved.map .global
  | .globalsAdded => r.globalsAdded.map .global
  | .functionChanges => r.functionChanges.map .functionChange
  | .globalChanges => r.globalChanges.map .globalChange
  | .recordChanges => r.recordChanges.map .recordChange
  | .unreferencedRecordChanges => r.unreferencedRecordChanges.map .recordChange
  | .recordsRemoved => r.recordsRemoved.map .record
  | .recordsAdded => r.recordsAdded.map .record
  | .enumChanges => r.enumChanges.map .enumChange
  | .enumExtensions => r.enumExtensions.map .enumChange
  | .unreferencedEnumChanges => r.unreferencedEnumChanges.map .enumChange
  | .unreferencedEnumExtensions => r.unreferencedEnumExtensions.map .enumChange
  | .enumsRemoved => r.enumsRemoved.map .enum
  | .enumsAdded => r.enumsAdded.map .enum
  | .functionSymbolsRemoved => r.functionSymbolsRemoved.map .symbol
  | .objectSymbolsRemoved => r.objectSymbolsRemoved.map .symbol
  | .functionSymbolsAdded => r.functionSymbolsAdded.map .symbol
  | .objectSymbolsAdded => r.objectSymbolsAdded.map .symbol

/-- The headings under which something is listed. -/
def filled (r : Report) : List Heading := Heading.all.filter fun h => !(r.under h).isEmpty

end Report

/-! ## The place of what was found -/

section Matter

open Report

/-- The heading for a change of what both versions have. -/
def Change.heading (reach : Reach) : Change → Heading
  | .function _ _ => .functionChanges
  | .global _ _ => .globalChanges
  | .record _ =>
    match reach with
    | .referenced => .recordChanges
    | .unreferenced => .unreferencedRecordChanges
  | .enum c =>
    match reach, c.isExtension with
    | .referenced, true => .enumExtensions
    | .referenced, false => .enumChanges
    | .unreferenced, true => .unreferencedEnumExtensions
    | .unreferenced, false => .unreferencedEnumChanges

/-- The heading for an entity that came or went. -/
def LoneEntity.heading (d : Direction) : LoneEntity → Heading
  | .function _ => Heading.pick d .functionsRemoved .functionsAdded
  | .global _ => Heading.pick d .globalsRemoved .globalsAdded
  | .record _ _ => Heading.pick d .recordsRemoved .recordsAdded
  | .enum _ _ => Heading.pick d .enumsRemoved .enumsAdded

/-- The heading for a symbol of a kind that came or went. -/
def SymbolKind.heading (d : Direction) : SymbolKind → Heading
  | .function => Heading.pick d .functionSymbolsRemoved .functionSymbolsAdded
  | .object => Heading.pick d .objectSymbolsRemoved .objectSymbolsAdded

def Matter.heading : Matter → Heading
  | finding f => f.change.heading f.reach
  | lone c => c.entity.heading c.direction
  | symbol c => c.kind.heading c.direction

/-- The entry of a change that was met on a path. -/
def Outcome.changeItem (o : Outcome) (path : String) : Change → Item
  | .function old new => .functionChange ⟨path, old.shown o.old, new.shown o.new⟩
  | .global old new => .globalChange ⟨path, old.shown o.old, new.shown o.new⟩
  | .record c => .recordChange (.of o.old o.new path c)
  | .enum c => .enumChange (.of path c)

/-- The entry of an entity that a version alone has. -/
def LoneEntity.item (m : Interface) : LoneEntity → Item
  | .function f => .function (f.shown m)
  | .global g => .global (g.shown m)
  | .record t layout => .record (.of m t layout)
  | .enum t layout => .enum (.of m t layout)

def Outcome.item (o : Outcome) : Matter → Item
  | .finding f => o.changeItem f.pathText f.change
  | .lone c => c.entity.item (o.holder c.direction)
  | .symbol c => .symbol c.symbol

/-- The entry of a thing under a heading, if that is its heading. -/
def Outcome.itemUnder? (o : Outcome) (h : Heading) (x : Matter) : Option Item :=
  if x.heading = h then some (o.item x) else none

end Matter

namespace Scope

variable {α β : Type} {byKey : Interface → Catalog TypeDecl.linkKey}

theorem length_filterMap_loneTypes {layout? : TypeDecl → Option α}
    (holds : ∀ m, byKey m = .ofList (m.userDefined.filter fun t => (layout? t).isSome))
    (make : TypeDecl → α → β) (scope : Scope) (d : Direction) :
    ((scope.loneTypes byKey d).filterMap fun t => (layout? t).map (make t)).length
      = (scope.loneTypes byKey d).length := by
  refine List.filterMap_length_eq_length.mpr fun t listed => ?_
  obtain ⟨here, -⟩ := Catalog.mem_without.mp (List.mem_of_mem_filter listed)
  rw [holds] at here
  obtain ⟨-, shape⟩ := List.mem_filter.mp (Catalog.mem_of_mem_ofList here)
  rw [Option.isSome_map]
  exact shape

theorem length_loneRecords (scope : Scope) (d : Direction) :
    (scope.loneRecords d).length = (scope.loneTypes recordsByKey d).length :=
  length_filterMap_loneTypes (fun _ => rfl) _ scope d

theorem length_loneEnums (scope : Scope) (d : Direction) :
    (scope.loneEnums d).length = (scope.loneTypes enumsByKey d).length :=
  length_filterMap_loneTypes (fun _ => rfl) _ scope d

end Scope

namespace Report

variable {o : Outcome} {libName arch : String} {h : Heading}

/-! ## Heading by heading -/

theorem itemUnder?_finding (f : Finding) : o.itemUnder? h (.finding f) = match h with
    | .functionChanges => (o.functionChange? f).map .functionChange
    | .globalChanges => (o.globalChange? f).map .globalChange
    | .recordChanges => (o.recordChange? .referenced f).map .recordChange
    | .unreferencedRecordChanges => (o.recordChange? .unreferenced f).map .recordChange
    | .enumChanges => (Outcome.enumChange? .referenced false f).map .enumChange
    | .enumExtensions => (Outcome.enumChange? .referenced true f).map .enumChange
    | .unreferencedEnumChanges => (Outcome.enumChange? .unreferenced false f).map .enumChange
    | .unreferencedEnumExtensions => (Outcome.enumChange? .unreferenced true f).map .enumChange
    | _ => none := by
  obtain ⟨reach, path, change⟩ := f
  cases change with
  | function old new => cases h <;> rfl
  | global old new => cases h <;> rfl
  | record c => cases reach <;> cases h <;> rfl
  | enum c =>
      cases extends_ : c.isExtension <;> cases reach <;> cases h <;>
        simp [Outcome.itemUnder?, Matter.heading, Change.heading, extends_, Outcome.item,
          Outcome.changeItem, Outcome.functionChange?, Outcome.globalChange?,
          Outcome.recordChange?, Outcome.enumChange?]

theorem itemUnder?_lone (c : LoneChange) : o.itemUnder? h (.lone c) = match h with
    | .functionsRemoved => (o.loneFunction? .removed c).map .function
    | .functionsAdded => (o.loneFunction? .added c).map .function
    | .globalsRemoved => (o.loneGlobal? .removed c).map .global
    | .globalsAdded => (o.loneGlobal? .added c).map .global
    | .recordsRemoved => (o.loneRecord? .removed c).map .record
    | .recordsAdded => (o.loneRecord? .added c).map .record
    | .enumsRemoved => (o.loneEnum? .removed c).map .enum
    | .enumsAdded => (o.loneEnum? .added c).map .enum
    | _ => none := by
  obtain ⟨d, entity⟩ := c
  cases entity <;> cases d <;> cases h <;> rfl

theorem itemUnder?_symbol (c : SymbolChange) : o.itemUnder? h (.symbol c) = match h with
    | .functionSymbolsRemoved => (Outcome.loneSymbol? .function .removed c).map .symbol
    | .objectSymbolsRemoved => (Outcome.loneSymbol? .object .removed c).map .symbol
    | .functionSymbolsAdded => (Outcome.loneSymbol? .function .added c).map .symbol
    | .objectSymbolsAdded => (Outcome.loneSymbol? .object .added c).map .symbol
    | _ => none := by
  obtain ⟨d, kind, symbol⟩ := c
  cases kind <;> cases d <;> cases h <;> rfl

theorem map_filter_found : (o.found.filter fun x => x.heading = h).map o.item
    = o.findings.filterMap (fun f => o.itemUnder? h (.finding f))
      ++ o.lone.filterMap (fun c => o.itemUnder? h (.lone c))
      ++ o.symbols.filterMap (fun c => o.itemUnder? h (.symbol c)) := by
  have each (x : Matter) :
      (Option.guard (fun x => x.heading = h) x).map o.item = o.itemUnder? h x := by
    rw [Option.guard, Outcome.itemUnder?]
    by_cases here : x.heading = h <;> simp [here]
  rw [← List.filterMap_eq_filter, List.map_filterMap]
  simp only [each, Outcome.found, List.filterMap_append, List.filterMap_map]
  rfl

/-- Under a heading a report lists the entries of what belongs there. -/
theorem under_of (h : Heading) :
    (Report.of o libName arch).under h
      = (o.found.filter fun x => x.heading = h).map o.item := by
  rw [map_filter_found]
  simp only [itemUnder?_finding, itemUnder?_lone, itemUnder?_symbol]
  cases h <;> simp [under, Report.of, List.map_filterMap]

/-! ## The summary -/

theorem counts_eq (r : Report) :
    r.counts = Heading.all.map fun h => (h.name, (r.under h).length) := by
  simp [counts, Heading.all, Heading.name, under]

/-- The summary names the headings under which something is listed. -/
theorem summary_eq (r : Report) :
    r.summary = r.filled.map fun h => (h.name, (r.under h).length) := by
  rw [summary, counts_eq, List.filter_map, filled]
  congr 2
  funext h
  rw [Function.comp_apply]
  cases r.under h <;> rfl

theorem sum_summary (r : Report) :
    (r.summary.map Prod.snd).sum = (Heading.all.map fun h => (r.under h).length).sum := by
  have skipped (cs : List (String × Nat)) :
      ((cs.filter fun c => c.2 != 0).map Prod.snd).sum = (cs.map Prod.snd).sum := by
    induction cs with
    | nil => rfl
    | cons c cs ih =>
        obtain ⟨name, n⟩ := c
        cases n with
        | zero => simpa using ih
        | succ n => simpa using ih
  rw [summary, skipped, counts_eq, List.map_map]
  rfl

theorem sum_length_filter_heading (xs : List Matter) :
    (Heading.all.map fun h => (xs.filter fun x => x.heading = h).length).sum = xs.length := by
  have one (x : Matter) : (Heading.all.map fun h => if x.heading = h then 1 else 0).sum = 1 := by
    cases x.heading <;> rfl
  induction xs with
  | nil => rfl
  | cons x xs ih =>
      have split (h : Heading) : ((x :: xs).filter fun x => x.heading = h).length
          = (xs.filter fun x => x.heading = h).length + if x.heading = h then 1 else 0 := by
        by_cases here : x.heading = h <;> simp [here]
      simp only [split, List.sum_map_add, ih, one, List.length_cons]

theorem sum_summary_of (o : Outcome) (libName arch : String) :
    ((Report.of o libName arch).summary.map Prod.snd).sum
      = o.findings.length + o.lone.length + o.symbols.length := by
  simp only [sum_summary, under_of, List.length_map, sum_length_filter_heading, Outcome.found,
    List.length_append]

/-! ## The document -/

/-- The member of a document for a heading. -/
def member (r : Report) (h : Heading) : String × Json :=
  (h.name, .array ((r.under h).map Item.toJson))

/-- The members of a document for some headings; one with an empty list is left out. -/
def members (r : Report) (hs : List Heading) : List (String × Json) :=
  hs.flatMap fun h => if (r.under h).isEmpty then [] else [r.member h]

theorem map_member_filled (r : Report) : r.filled.map r.member = r.members Heading.all := by
  have listed (hs : List Heading) :
      (hs.filter fun h => !(r.under h).isEmpty).map r.member = r.members hs := by
    induction hs with
    | nil => rfl
    | cons h hs ih =>
        rw [members, List.flatMap_cons, List.filter_cons, ← members, ← ih]
        cases r.under h <;> rfl
  exact listed Heading.all

/-- A field of the schema that has the name and the entries of a heading writes its member. -/
theorem toMembers_eq_members {r : Report} {name : String} {h : Heading} {hs : List Heading}
    {item : Schema} {rest : Fields} {xs : List item.El} {row : rest.Row} (named : h.name = name)
    (entries : (r.under h).map Item.toJson = xs.map item.toJson)
    (others : rest.toMembers row = r.members hs) :
    (Fields.elided name (.list item) rest).toMembers (xs, row) = r.members (h :: hs) := by
  subst named
  have same : xs.isEmpty = (r.under h).isEmpty := by
    rw [← List.isEmpty_map (f := Item.toJson), entries, List.isEmpty_map]
  have written : (Fields.elided h.name (.list item) rest).toMembers (xs, row)
      = (if xs.isEmpty then [] else [(h.name, .array (xs.map item.toJson))])
        ++ rest.toMembers row := by
    cases xs with
    | nil => exact (Fields.toMembers.eq_2 ..).trans (if_pos ⟨rfl, rfl⟩)
    | cons x xs => exact (Fields.toMembers.eq_2 ..).trans (if_neg fun h => nomatch h.2)
  rw [written, same, ← entries, others]
  rfl

theorem toJson_eq (r : Report) : r.toJson = .object
    ([("lib_name", .string r.libName), ("arch", .string r.arch),
        ("compatibility_status", .array (r.status.map .string)),
        ("compatibility_status_code", .ofUInt64 r.statusCode.toUInt64)]
      ++ r.filled.map r.member) := by
  rw [map_member_filled, Heading.all]
  refine congrArg (fun ms => Json.object (_ :: _ :: _ :: _ :: ms)) ?_
  iterate 20
    refine toMembers_eq_members rfl ?_ ?_
    · refine List.map_map.trans (.trans ?_ List.map_map.symm)
      rfl
  rfl

/-- The report on a comparison has one entry for each thing that was found, under the heading of
the thing and in the order of what was found; what came or went was found with all it takes to
list it.  The lengths in the summary add up to the number of things, and the text has, after
four members about the comparison as a whole, the headings of the summary. -/
theorem of_compare_entries (old new : Interface) (policy : Policy) (libName arch : String) :
    let scope : Scope := ⟨old, new, policy⟩
    let o := compare old new policy
    let r := Report.of o libName arch
    (∀ h, r.under h = (o.found.filter fun x => x.heading = h).map o.item)
    ∧ (∀ d, (scope.loneRecords d).length = (scope.loneTypes Scope.recordsByKey d).length
        ∧ (scope.loneEnums d).length = (scope.loneTypes Scope.enumsByKey d).length)
    ∧ (r.summary.map Prod.snd).sum = o.findings.length + o.lone.length + o.symbols.length
    ∧ r.summary = (r.filled.map fun h => (h.name, (r.under h).length))
    ∧ Json.parse (Bytes.ofText r.text) = .ok (.object
        ([("lib_name", .string libName), ("arch", .string arch),
            ("compatibility_status", .array (o.verdict.names.map .string)),
            ("compatibility_status_code", .ofUInt64 o.verdict.bits.toUInt64)]
          ++ r.filled.map fun h => (h.name, .array ((r.under h).map Item.toJson)))) := by
  intro scope o r
  refine ⟨under_of, fun d => ⟨scope.length_loneRecords d, scope.length_loneEnums d⟩,
    sum_summary_of o libName arch, summary_eq r, ?_⟩
  have read : Json.parse (Bytes.ofText r.text) = .ok r.toJson :=
    (schema.spelled r.document).parse_prettyDocument
  rw [read, toJson_eq]
  rfl

end Report

end AbiCompat
