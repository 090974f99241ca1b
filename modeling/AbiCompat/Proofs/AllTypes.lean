/-
# Comparing all types

A comparison of all types begins as the comparison of what is exported and goes on with the types
that the author of the library declared, on the same walk.  So it says all that the comparison of
what is exported says, first and in the same order; what it says besides is about types that
nothing exported reaches.

With `o` for the outcome of the comparison of what is exported and `o'` for that of all types:

    o'.findings = o.findings ++ more      (records and enumerations, unreferenced)
    o'.lone     = o.lone ++ others        (records and enumerations)
    o'.symbols  = o.symbols
    o'.verdict  = o.verdict, with `unreferenced` raised if `more` or `others` is not empty,
                  unless something in use broke or a symbol is gone

The walk over the exported names does not look at the flag, so it is literally the same walk
(`walkExports_withAll`); the rest of it is a tour of types, and `Finds` tells what a tour of types
can find.

This is not to say that the second part finds every change of the types that it goes through: what
the first part has noted it passes over, as is right for types in use, and it goes by linker set
keys, so that of several types with one key it sees one.
-/
import AbiCompat.Proofs.Renaming.Walks
import AbiCompat.Proofs.Walk.Found

namespace AbiCompat

/-- The policy, with all types to be compared or only those that exported names reach. -/
def Policy.withAll (p : Policy) (all : Bool) : Policy := { p with checkAll := all }

/-- A record or an enumeration. -/
inductive LoneEntity.IsType : LoneEntity → Prop
  | record (t : TypeDecl) (layout : RecordLayout) : IsType (.record t layout)
  | enum (t : TypeDecl) (layout : EnumLayout) : IsType (.enum t layout)

theorem LoneEntity.IsType.reach {e : LoneEntity} (h : e.IsType) : e.reach = .unreferenced := by
  cases h <;> rfl

/-! ## The walk

The switch is read once, between the two parts.  Up to there the walks are one. -/

namespace Scope

variable {old new : Interface} {policy : Policy}

theorem walkExports_withAll (old new : Interface) (policy : Policy) :
    (walkExports ⟨old, new, policy.withAll true⟩).run .start
      = (walkExports ⟨old, new, policy.withAll false⟩).run .start := by
  have same : SameUnder .none (fun _ => True) (fun _ => True) ⟨old, new, policy.withAll false⟩
      ⟨old, new, policy.withAll true⟩ :=
    { old := .refl old
      new := .refl new
      ignores := fun _ => rfl
      unresolved := fun _ _ => rfl }
  exact same.walkExports_eq (.of_eq rfl rfl) (.of_eq rfl rfl) fun _ _ _ _ _ _ => ⟨trivial, trivial⟩

/-- A walk over all types goes on where the one over the exported names ends. -/
theorem walk_withAll (old new : Interface) (policy : Policy) :
    (walk ⟨old, new, policy.withAll true⟩).run .start
      = (walkUserTypes ⟨old, new, policy.withAll true⟩).run
        ((walk ⟨old, new, policy.withAll false⟩).run .start).2 := by
  show (walkUserTypes ⟨old, new, policy.withAll true⟩).run
    ((walkExports ⟨old, new, policy.withAll true⟩).run .start).2 = _
  rw [walkExports_withAll]
  rfl

theorem walkUserTypes_finds (scope : Scope) (w : Walk) :
    Finds .unreferenced Change.OfType w (scope.walkUserTypes.run w).2 :=
  (scope.walkUserTypes_tour w).finds.mono fun _ ⟨_, listed, found⟩ =>
    userTypes_ofType listed found

/-! ## What came or went

Functions and global variables come first, and records and enumerations follow. -/

theorem isType_of_loneRecords {scope : Scope} {d : Direction} {c : LoneChange}
    (listed : c ∈ scope.loneRecords d) : c.entity.IsType := by
  obtain ⟨t, -, made⟩ := List.mem_filterMap.mp listed
  obtain ⟨layout, -, rfl⟩ := Option.map_eq_some_iff.mp made
  exact .record t layout

theorem isType_of_loneEnums {scope : Scope} {d : Direction} {c : LoneChange}
    (listed : c ∈ scope.loneEnums d) : c.entity.IsType := by
  obtain ⟨t, -, made⟩ := List.mem_filterMap.mp listed
  obtain ⟨layout, -, rfl⟩ := Option.map_eq_some_iff.mp made
  exact .enum t layout

theorem loneChanges_withAll (old new : Interface) (policy : Policy) :
    ∃ came, loneChanges ⟨old, new, policy.withAll true⟩
        = loneChanges ⟨old, new, policy.withAll false⟩ ++ came
      ∧ ∀ c ∈ came, c.entity.IsType := by
  let scope : Scope := ⟨old, new, policy.withAll true⟩
  refine ⟨scope.loneRecords .removed ++ scope.loneRecords .added
    ++ scope.loneEnums .removed ++ scope.loneEnums .added, ?_, ?_⟩
  · rw [← List.append_assoc, ← List.append_assoc, ← List.append_assoc]
    rfl
  · intro c mem
    simp only [List.mem_append] at mem
    rcases mem with ((record | record) | enum) | enum
    · exact isType_of_loneRecords record
    · exact isType_of_loneRecords record
    · exact isType_of_loneEnums enum
    · exact isType_of_loneEnums enum

theorem referenced_of_loneFunctions {scope : Scope} {d : Direction} {c : LoneChange}
    (listed : c ∈ scope.loneFunctions d) : c.entity.reach = .referenced := by
  obtain ⟨f, -, rfl⟩ := List.mem_map.mp listed
  rfl

theorem referenced_of_loneGlobals {scope : Scope} {d : Direction} {c : LoneChange}
    (listed : c ∈ scope.loneGlobals d) : c.entity.reach = .referenced := by
  obtain ⟨g, -, rfl⟩ := List.mem_map.mp listed
  rfl

theorem referenced_of_loneChanges {c : LoneChange}
    (listed : c ∈ loneChanges ⟨old, new, policy.withAll false⟩) : c.entity.reach = .referenced := by
  unfold loneChanges at listed
  have exportedOnly : ¬ (policy.withAll false).checkAll = true := Bool.false_ne_true
  simp only [if_neg exportedOnly, List.mem_append] at listed
  rcases listed with ((function | function) | global) | global
  · exact referenced_of_loneFunctions function
  · exact referenced_of_loneFunctions function
  · exact referenced_of_loneGlobals global
  · exact referenced_of_loneGlobals global

end Scope

/-! ## The verdict

Types that nothing exported reaches are told of where nothing in use broke and no symbol is gone.
-/

/-- A verdict that was reached without a look at types which nothing exported reaches, after
it was found whether something changed in them. -/
def Verdict.withUnreferenced (v : Verdict) (changed : Bool) : Verdict :=
  if v.isIncompatible || v.symbolsGone then v else { v with unreferenced := changed }

/-- What nothing exported reaches is told where nothing broke and no symbol is gone. -/
theorem Verdict.ofFindings_append {findings found : List Finding} {lone came : List LoneChange}
    (symbols : List SymbolChange) (inUse : ∀ f ∈ findings, f.reach = .referenced)
    (exported : ∀ c ∈ lone, c.entity.reach = .referenced)
    (unused : ∀ f ∈ found, f.reach = .unreferenced)
    (types : ∀ c ∈ came, c.entity.reach = .unreferenced) :
    ofFindings (findings ++ found) (lone ++ came) symbols
      = (ofFindings findings lone symbols).withUnreferenced
        (!(found.isEmpty && came.isEmpty)) := by
  -- what is out of reach neither breaks callers nor is news to them
  have breaks : found.any breaks = false := by
    simp +contextual [Verdict.breaks, unused]
  have addsValues : found.any addsValues = false := by
    simp +contextual [Verdict.addsValues, unused]
  have notExported (d : Direction) :
      came.any (fun c => c.direction == d && c.entity.reach == .referenced) = false := by
    simp +contextual [types]
  -- and nothing else is out of reach
  have reached : findings.any (fun f => f.reach == .unreferenced) = false := by
    simp +contextual [inUse]
  have reached' : lone.any (fun c => c.entity.reach == .unreferenced) = false := by
    simp +contextual [exported]
  have anyFound : found.any (fun f => f.reach == .unreferenced) = !found.isEmpty := by
    cases found with
    | nil => rfl
    | cons f rest => simp [unused f List.mem_cons_self]
  have anyCame : came.any (fun c => c.entity.reach == .unreferenced) = !came.isEmpty := by
    cases came with
    | nil => rfl
    | cons c rest => simp [types c List.mem_cons_self]
  unfold ofFindings withUnreferenced
  simp only [List.any_append, breaks, addsValues, notExported, reached, reached', anyFound, anyCame,
    Bool.or_false, Bool.false_or, Bool.not_and]
  split
  · rfl
  · split <;> rfl

/-- To compare all types besides adds to what is said, and only about types that nothing
exported reaches: further findings are about records and enumerations out of reach, and what
came or went besides is such a record or enumeration.  The verdict stays where something broke
or a symbol is gone, and otherwise tells whether there was anything of that. -/
theorem compare_checkAll (old new : Interface) (policy : Policy) :
    let exported := compare old new (policy.withAll false)
    let all := compare old new (policy.withAll true)
    ∃ found came,
      all.findings = exported.findings ++ found
        ∧ (∀ f ∈ found, f.reach = .unreferenced ∧ f.change.OfType)
        ∧ all.lone = exported.lone ++ came
        ∧ (∀ c ∈ came, c.entity.IsType)
        ∧ all.symbols = exported.symbols
        ∧ all.verdict = exported.verdict.withUnreferenced (!(found.isEmpty && came.isEmpty)) := by
  intro exported all
  obtain ⟨found, rest, unused⟩ := (Scope.mk old new (policy.withAll true)).walkUserTypes_finds
    ((Scope.mk old new (policy.withAll false)).walk.run .start).2
  obtain ⟨came, more, types⟩ := Scope.loneChanges_withAll old new policy
  have findings : all.findings = exported.findings ++ found := by
    rw [← Scope.walk_withAll] at rest
    exact rest
  have lone : all.lone = exported.lone ++ came := more
  refine ⟨found, came, findings, unused, lone, types, rfl, ?_⟩
  show Verdict.ofFindings all.findings all.lone all.symbols = _
  rw [findings, lone]
  exact Verdict.ofFindings_append _ (findings_referenced rfl)
    (fun c listed => Scope.referenced_of_loneChanges listed) (fun f mem => (unused f mem).1)
    fun c mem => (types c mem).reach

end AbiCompat
