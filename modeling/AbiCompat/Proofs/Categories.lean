/-
# The verdict and the lists of a report

The verdict is made from the findings, and the report sorts the findings into lists, each by rules
of its own.  The two agree: the code of a report can be told from which of its lists have entries.

    8   if a function or a global variable was removed, or a list of changes of functions, global
        variables or records in use, or of enumerations in use other than extensions, has entries;
    16  otherwise, if a list of symbols that are gone has entries;
    4   otherwise, if functions, global variables or values of enumerations in use were added,
    +1  and if a list on types that nothing exported reaches has entries.

Each line is one lemma on findings (`breaks_eq_listed` and its like): the test by which the verdict
picks out a finding is the test by which some lists do.  That needs to know which findings a
comparison makes, since a function that is met as unreferenced would be listed and not count;
`Finding.Regular` says that there are none.

Besides, the code is zero exactly if no list has entries but those of new symbols, and so exactly
if nothing but new symbols shows in the summary.
-/
import AbiCompat.Proofs.Walk.Found
import AbiCompat.Report.Basic

namespace AbiCompat

/-! ## What the lists say -/

namespace Report

/-- Whether something that callers use changed or is gone. -/
def breaks (r : Report) : Bool :=
  !r.functionsRemoved.isEmpty || !r.globalsRemoved.isEmpty || !r.functionChanges.isEmpty
    || !r.globalChanges.isEmpty || !r.recordChanges.isEmpty || !r.enumChanges.isEmpty

/-- Whether a dynamic symbol is gone. -/
def losesSymbols (r : Report) : Bool :=
  !r.functionSymbolsRemoved.isEmpty || !r.objectSymbolsRemoved.isEmpty

/-- Whether there is something that old callers do not need. -/
def addsExports (r : Report) : Bool :=
  !r.functionsAdded.isEmpty || !r.globalsAdded.isEmpty || !r.enumExtensions.isEmpty

/-- Whether types changed, came or went that nothing exported reaches. -/
def changesUnreferenced (r : Report) : Bool :=
  !r.unreferencedRecordChanges.isEmpty || !r.recordsRemoved.isEmpty || !r.recordsAdded.isEmpty
    || !r.unreferencedEnumChanges.isEmpty || !r.unreferencedEnumExtensions.isEmpty
    || !r.enumsRemoved.isEmpty || !r.enumsAdded.isEmpty

/-- The code that the lists call for. -/
def codeOfLists (r : Report) : UInt32 :=
  if r.breaks then 8
  else if r.losesSymbols then 16
  else (if r.addsExports then 4 else 0) + (if r.changesUnreferenced then 1 else 0)

end Report

/-! ## Findings that a comparison makes -/

/-- A finding of a kind that a comparison makes: functions and global variables are met as
exported names only, and an enumeration is found for new values or as incompatible. -/
inductive Finding.Regular (f : Finding) : Prop
  | ofType : f.change.OfType → Regular f
  | exported : f.reach = .referenced →
      (∃ old new, f.change = .function old new) ∨ (∃ old new, f.change = .global old new) →
      Regular f

theorem regular_of_mem_findings {old new : Interface} {policy : Policy} :
    ∀ f ∈ (compare old new policy).findings, f.Regular := by
  obtain ⟨exported, others, eq, all, all', -⟩ := findings_split old new policy
  intro f mem
  rw [eq] at mem
  rcases List.mem_append.mp mem with mem | mem
  · obtain ⟨reach, e, -, found⟩ := all f mem
    cases found with
    | ofType h => exact .ofType h
    | function _ same => exact .exported reach (.inl ⟨_, _, same⟩)
    | global _ same => exact .exported reach (.inr ⟨_, _, same⟩)
  · exact .ofType (all' f mem).2

/-! ## Each thing that was found, in the lists and in the verdict

What breaks callers is in four lists, enumerations in use that have new values only are in one, and
what nothing exported reaches is in three.  Exported names that came or went are in two lists each,
types in four, symbols that are gone in two. -/

section Lists

variable {o : Outcome} {f : Finding}

theorem breaks_eq_listed (regular : f.Regular) :
    Verdict.breaks f = ((o.functionChange? f).isSome || (o.globalChange? f).isSome
      || (o.recordChange? .referenced f).isSome
      || (Outcome.enumChange? .referenced false f).isSome) := by
  obtain ⟨reach, path, change⟩ := f
  rcases regular with ofType | ⟨rfl, ⟨_, _, rfl⟩ | ⟨_, _, rfl⟩⟩
  · cases ofType with
    | record c => cases reach <;> rfl
    | @enum c found =>
        -- of the two that an enumeration can be found for, the lists ask for the first
        have other : c.isIncompatible = !c.isExtension := by
          cases h : c.isIncompatible <;> simp_all [EnumChange.isExtension]
        cases reach <;> cases h : c.isExtension <;>
          simp [Verdict.breaks, Change.isIncompatible, other, h, Outcome.functionChange?,
            Outcome.globalChange?, Outcome.recordChange?, Outcome.enumChange?]
  · rfl
  · rfl

theorem addsValues_eq_listed :
    Verdict.addsValues f = (Outcome.enumChange? .referenced true f).isSome := by
  obtain ⟨reach, path, change⟩ := f
  cases change with
  | enum c =>
      cases reach <;> cases h : c.isExtension <;>
        simp [Verdict.addsValues, Outcome.enumChange?, h]
  | record | function | global => cases reach <;> rfl

theorem unreferenced_eq_listed (regular : f.Regular) :
    (f.reach == .unreferenced) = ((o.recordChange? .unreferenced f).isSome
      || (Outcome.enumChange? .unreferenced false f).isSome
      || (Outcome.enumChange? .unreferenced true f).isSome) := by
  obtain ⟨reach, path, change⟩ := f
  rcases regular with ofType | ⟨rfl, ⟨_, _, rfl⟩ | ⟨_, _, rfl⟩⟩
  · cases ofType with
    | record c => cases reach <;> rfl
    | @enum c _ =>
        cases reach <;> cases h : c.isExtension <;>
          simp [Outcome.recordChange?, Outcome.enumChange?, h]
  · rfl
  · rfl

theorem loneExport_eq_listed (d : Direction) (c : LoneChange) :
    (c.direction == d && c.entity.reach == .referenced)
      = ((o.loneFunction? d c).isSome || (o.loneGlobal? d c).isSome) := by
  obtain ⟨d', entity⟩ := c
  cases d <;> cases d' <;> cases entity <;> rfl

theorem loneType_eq_listed (c : LoneChange) :
    (c.entity.reach == .unreferenced)
      = ((o.loneRecord? .removed c).isSome || (o.loneRecord? .added c).isSome
        || (o.loneEnum? .removed c).isSome || (o.loneEnum? .added c).isSome) := by
  obtain ⟨d, entity⟩ := c
  cases d <;> cases entity <;> rfl

theorem symbolGone_eq_listed (c : SymbolChange) :
    (c.direction == .removed) = ((Outcome.loneSymbol? .function .removed c).isSome
      || (Outcome.loneSymbol? .object .removed c).isSome) := by
  obtain ⟨d, kind, symbol⟩ := c
  cases d <;> cases kind <;> rfl

end Lists

/-! ## All that was found

A list has entries when some thing makes one.  Additions and changes of unreferenced types have a
bit each; a break and a symbol that is gone have theirs alone. -/

theorem not_isEmpty_filterMap {α β : Type} (g : α → Option β) (xs : List α) :
    (!(xs.filterMap g).isEmpty) = xs.any fun x => (g x).isSome := by
  induction xs with
  | nil => rfl
  | cons x xs ih =>
      rw [List.any_cons, List.filterMap_cons]
      cases g x with
      | none => simpa using ih
      | some y => rfl

theorem any_or {α : Type} (p q : α → Bool) (xs : List α) :
    (xs.any fun x => p x || q x) = (xs.any p || xs.any q) := by
  induction xs with
  | nil => rfl
  | cons x xs ih =>
      rw [List.any_cons, List.any_cons, List.any_cons, ih]
      cases p x <;> cases q x <;> simp

theorem any_eq {α : Type} {p q : α → Bool} {xs : List α} (h : ∀ x ∈ xs, p x = q x) :
    xs.any p = xs.any q := by
  rw [Bool.eq_iff_iff, List.any_eq_true, List.any_eq_true]
  refine exists_congr fun x => and_congr_right fun mem => ?_
  rw [h x mem]

namespace Report

variable {o : Outcome} {libName arch : String}

theorem breaks_of (regular : ∀ f ∈ o.findings, f.Regular) :
    (Report.of o libName arch).breaks = (o.findings.any Verdict.breaks
      || o.lone.any fun c => c.direction == .removed && c.entity.reach == .referenced) := by
  rw [any_eq fun f mem => breaks_eq_listed (o := o) (regular f mem),
    any_eq fun c _ => loneExport_eq_listed (o := o) .removed c]
  simp only [breaks, Report.of, not_isEmpty_filterMap, any_or]
  ac_rfl

theorem losesSymbols_of : (Report.of o libName arch).losesSymbols
    = o.symbols.any fun c => c.direction == .removed := by
  rw [any_eq fun c _ => symbolGone_eq_listed c]
  simp only [losesSymbols, Report.of, not_isEmpty_filterMap, any_or]

theorem addsExports_of : (Report.of o libName arch).addsExports = (o.findings.any Verdict.addsValues
    || o.lone.any fun c => c.direction == .added && c.entity.reach == .referenced) := by
  rw [any_eq fun f _ => addsValues_eq_listed (f := f),
    any_eq fun c _ => loneExport_eq_listed (o := o) .added c]
  simp only [addsExports, Report.of, not_isEmpty_filterMap, any_or]
  ac_rfl

theorem changesUnreferenced_of (regular : ∀ f ∈ o.findings, f.Regular) :
    (Report.of o libName arch).changesUnreferenced
      = ((o.findings.any fun f => f.reach == .unreferenced)
        || o.lone.any fun c => c.entity.reach == .unreferenced) := by
  rw [any_eq fun f mem => unreferenced_eq_listed (o := o) (regular f mem),
    any_eq fun c _ => loneType_eq_listed (o := o) c]
  simp only [changesUnreferenced, Report.of, not_isEmpty_filterMap, any_or]
  ac_rfl

/-- The code is nothing when no list calls for a part of it. -/
theorem codeOfLists_eq_zero_iff {r : Report} : r.codeOfLists = 0 ↔ r.breaks = false
    ∧ r.losesSymbols = false ∧ r.addsExports = false ∧ r.changesUnreferenced = false := by
  unfold codeOfLists
  cases r.breaks <;> cases r.losesSymbols <;> cases r.addsExports <;>
    cases r.changesUnreferenced <;> decide

theorem quiet_iff_summary {r : Report} : (r.breaks = false ∧ r.losesSymbols = false
    ∧ r.addsExports = false ∧ r.changesUnreferenced = false) ↔
      ∀ c ∈ r.summary, c.1 = "added_elf_functions" ∨ c.1 = "added_elf_objects" := by
  simp [breaks, losesSymbols, addsExports, changesUnreferenced, summary, counts]
  tauto

end Report

theorem Verdict.bits_of_no_break (isExtension unreferenced : Bool) :
    Verdict.bits { compatible with isExtension, unreferenced }
      = (if isExtension then 4 else 0) + (if unreferenced then 1 else 0) := by
  cases isExtension <;> cases unreferenced <;> rfl

theorem Verdict.bits_ofFindings (findings : List Finding) (lone : List LoneChange)
    (symbols : List SymbolChange) : (ofFindings findings lone symbols).bits
      = if findings.any breaks
          || lone.any (fun c => c.direction == .removed && c.entity.reach == .referenced) then 8
        else if symbols.any (fun c => c.direction == .removed) then 16
        else (if findings.any addsValues
            || lone.any (fun c => c.direction == .added && c.entity.reach == .referenced) then 4
            else 0)
          + (if findings.any (fun f => f.reach == .unreferenced)
            || lone.any (fun c => c.entity.reach == .unreferenced) then 1 else 0) := by
  unfold ofFindings
  split
  · rfl
  · split
    · rfl
    · exact bits_of_no_break _ _

/-- The code of a report on a comparison is the one that its lists call for, and there is none
when no list but those of new symbols has entries. -/
theorem statusCode_eq_codeOfLists (old new : Interface) (policy : Policy) (libName arch : String) :
    (Report.of (compare old new policy) libName arch).statusCode
        = (Report.of (compare old new policy) libName arch).codeOfLists
      ∧ ((Report.of (compare old new policy) libName arch).statusCode = 0 ↔
        ∀ c ∈ (Report.of (compare old new policy) libName arch).summary,
          c.1 = "added_elf_functions" ∨ c.1 = "added_elf_objects") := by
  have regular : ∀ f ∈ (compare old new policy).findings, f.Regular := regular_of_mem_findings
  have code : (Report.of (compare old new policy) libName arch).statusCode
      = (Report.of (compare old new policy) libName arch).codeOfLists := by
    rw [Report.codeOfLists, Report.breaks_of regular, Report.losesSymbols_of,
      Report.addsExports_of, Report.changesUnreferenced_of regular]
    exact Verdict.bits_ofFindings _ _ _
  refine ⟨code, ?_⟩
  rw [code, Report.codeOfLists_eq_zero_iff, Report.quiet_iff_summary]

end AbiCompat
