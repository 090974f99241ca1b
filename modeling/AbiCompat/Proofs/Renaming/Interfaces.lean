/-
# Ids are handles only

A library that is read again may have other ids for the same types.

## What is proved

If two ids do not become one, and if no two user-defined types of a kind share a linker set key,
nothing that a comparison tells depends on the ids: the verdict, the findings with their order and
paths, and what came or went are those of the comparison under the ids before.

    KeptApart, DistinctUserTypes, ids that do not resolve are taken to match
      →  compare (renamed old) (renamed new) = (compare old new, renamed)

Only ids that an interface mentions have to be kept apart, and the two versions may be renamed in
different ways.

## Why these conditions

Where two types share a key, the one with the last id stands for both, so that there the order of
the ids counts; and where ids that do not resolve are compared, they are compared as they are
spelled.  `linkedNodes` is an instance with types that refer to each other in a cycle, an id that
does not resolve, and ids that change places.
-/
import AbiCompat.Proofs.Renaming.Walks

namespace AbiCompat

namespace Interface

/-- The interface under other ids. -/
def rename (ρ : String → String) (m : Interface) : Interface :=
  { m with
    types := .ofList (m.types.items.map (TypeDecl.rename ρ))
    functions := m.functions.map (FunctionDecl.rename ρ) FunctionDecl.linkKey_rename
    globals := m.globals.map (GlobalDecl.rename ρ) GlobalDecl.linkKey_rename }

/-- No two of the selected user-defined types share a linker set key. -/
abbrev KeysApart (m : Interface) (select : TypeDecl → Bool) : Prop :=
  ∀ s ∈ m.types.items, ∀ t ∈ m.types.items, s.isUserDefined ∧ select s →
    t.isUserDefined ∧ select t → s.linkKey = t.linkKey → s = t

/-- No two named records share a linker set key, and no two enumerations do. -/
structure DistinctUserTypes (m : Interface) : Prop where
  records : m.KeysApart fun t => t.record?.isSome
  enums : m.KeysApart fun t => t.enum?.isSome

/-- Two ids that the interface mentions do not become one. -/
abbrev KeptApart (m : Interface) (ρ : String → String) : Prop :=
  ∀ a ∈ m.mentions, ∀ b ∈ m.mentions, ρ a = ρ b → a = b

variable {m : Interface} {ρ : String → String} {t : TypeDecl}

/-! ## Types

Renamed types that share their id are one, so a mentioned id leads to the type that it led to
before. -/

theorem distinct_rename (apart : m.KeptApart ρ) :
    ∀ x ∈ m.types.items.map (TypeDecl.rename ρ), ∀ y ∈ m.types.items.map (TypeDecl.rename ρ),
      x.id = y.id → x = y := by
  intro x hx y hy same
  obtain ⟨s, hs, rfl⟩ := List.mem_map.mp hx
  obtain ⟨t, ht, rfl⟩ := List.mem_map.mp hy
  have ids : s.id = t.id := apart _ (mem_mentions_of_type hs) _ (mem_mentions_of_type ht) same
  rw [Catalog.eq_of_key_eq hs ht ids]

theorem mem_types_rename (apart : m.KeptApart ρ) :
    t ∈ (m.rename ρ).types.items ↔ ∃ s ∈ m.types.items, s.rename ρ = t :=
  (Catalog.mem_ofList (distinct_rename apart)).trans List.mem_map

theorem type?_rename (apart : m.KeptApart ρ) {id : String} (mentioned : id ∈ m.mentions) :
    (m.rename ρ).type? (ρ id) = (m.type? id).map (TypeDecl.rename ρ) := by
  cases found : m.type? id with
  | some s =>
      have there := (mem_types_rename apart).mpr ⟨s, Catalog.mem_of_find? found, rfl⟩
      have lookup := Catalog.find?_key there
      rw [← Catalog.key_of_find? found]
      exact lookup
  | none =>
      refine Catalog.find?_ofList_eq_none.mpr ?_
      intro t mem same
      obtain ⟨s, hs, rfl⟩ := List.mem_map.mp mem
      have ids : s.id = id := apart _ (mem_mentions_of_type hs) _ mentioned same
      have lookup := Catalog.find?_key hs
      rw [ids] at lookup
      exact Option.some_ne_none s (lookup.symm.trans found)

theorem sameUnder_rename (apart : m.KeptApart ρ) :
    m.SameUnder ρ (· ∈ m.mentions) (m.rename ρ) where
  refs _ found mem := mem_mentions_of_ref found mem
  types := type?_rename apart
  apart ha hb := apart _ ha _ hb

/-! ## User-defined types by their keys -/

section Selected

variable {select : TypeDecl → Bool} (stays : ∀ t : TypeDecl, select (t.rename ρ) = select t)

include stays in
theorem mem_userDefined_rename (apart : m.KeptApart ρ) :
    t ∈ (m.rename ρ).userDefined.filter select ↔
      ∃ s ∈ m.userDefined.filter select, s.rename ρ = t := by
  simp only [mem_userDefined, mem_types_rename apart]
  constructor
  · rintro ⟨⟨s, mem, rfl⟩, defined, selected⟩
    rw [s.isUserDefined_rename] at defined
    rw [stays] at selected
    exact ⟨s, ⟨mem, defined, selected⟩, rfl⟩
  · rintro ⟨s, ⟨mem, defined, selected⟩, rfl⟩
    rw [s.isUserDefined_rename, stays]
    exact ⟨⟨s, mem, rfl⟩, defined, selected⟩

theorem KeysApart.eq (distinct : m.KeysApart select) :
    ∀ s ∈ m.userDefined.filter select, ∀ t ∈ m.userDefined.filter select,
      s.linkKey = t.linkKey → s = t := by
  intro s hs t ht same
  obtain ⟨hs, selected⟩ := mem_userDefined.mp hs
  obtain ⟨ht, selected'⟩ := mem_userDefined.mp ht
  exact distinct s hs t ht selected selected' same

include stays in
/-- If no two of them share a key, the selected user-defined types stay under their keys. -/
theorem ofList_userDefined_rename (apart : m.KeptApart ρ) (distinct : m.KeysApart select) :
    (Catalog.ofList ((m.rename ρ).userDefined.filter select) : Catalog TypeDecl.linkKey)
      = (Catalog.ofList (m.userDefined.filter select) : Catalog TypeDecl.linkKey).map
        (TypeDecl.rename ρ) TypeDecl.linkKey_rename := by
  have listed {t : TypeDecl} := mem_userDefined_rename (t := t) stays apart
  have distinct' : ∀ x ∈ (m.rename ρ).userDefined.filter select,
      ∀ y ∈ (m.rename ρ).userDefined.filter select, x.linkKey = y.linkKey → x = y := by
    intro x hx y hy same
    obtain ⟨s, hs, rfl⟩ := listed.mp hx
    obtain ⟨t, ht, rfl⟩ := listed.mp hy
    rw [distinct.eq s hs t ht same]
  -- both are in ascending order of their keys, so that it is enough that they have the same types
  refine Catalog.ext_items (Catalog.eq_of_ascending (Catalog.ascending _) (Catalog.ascending _) ?_)
  intro t
  rw [Catalog.mem_ofList distinct', listed, Catalog.items_map, List.mem_map]
  simp only [Catalog.mem_ofList distinct.eq]

end Selected

theorem sameUserTypes_rename (apart : m.KeptApart ρ) (distinct : m.DistinctUserTypes) :
    m.SameUserTypesUnder ρ (m.rename ρ) where
  records := ofList_userDefined_rename (fun t => by simp) apart distinct.records
  enums := ofList_userDefined_rename (fun t => by simp) apart distinct.enums

theorem sameExports_rename (m : Interface) (ρ : String → String) :
    m.SameExportsUnder ρ (m.rename ρ) :=
  ⟨rfl, rfl⟩

end Interface

/-! ## What came or went

Types that came or went are those of before, if types stay under their keys; names and symbols have
no ids. -/

/-- The scope under other ids. -/
def Scope.rename (r : Renaming) (scope : Scope) : Scope :=
  ⟨scope.old.rename r.old, scope.new.rename r.new, scope.policy⟩

namespace Scope

variable {r : Renaming} {scope : Scope}

theorem loneFunctions_rename (d : Direction) :
    (scope.rename r).loneFunctions d = (scope.loneFunctions d).map (LoneChange.rename r) := by
  cases d
  all_goals
    simp only [loneFunctions, rename, holder, other, Interface.rename, Catalog.without_map,
      List.filter_map, List.map_map]
    rfl

theorem loneGlobals_rename (d : Direction) :
    (scope.rename r).loneGlobals d = (scope.loneGlobals d).map (LoneChange.rename r) := by
  cases d
  all_goals
    simp only [loneGlobals, rename, holder, other, Interface.rename, Catalog.without_map,
      List.filter_map, List.map_map]
    rfl

theorem symbolChanges_rename (kind : SymbolKind) (d : Direction) :
    (scope.rename r).symbolChanges kind d = scope.symbolChanges kind d := by
  cases d <;> cases kind <;> rfl

theorem allSymbolChanges_rename (scope : Scope) (r : Renaming) :
    (scope.rename r).allSymbolChanges = scope.allSymbolChanges := by
  unfold allSymbolChanges
  simp only [symbolChanges_rename]

theorem loneTypes_rename {byKey : Interface → Catalog TypeDecl.linkKey}
    (old : byKey (scope.old.rename r.old)
      = (byKey scope.old).map (TypeDecl.rename r.old) TypeDecl.linkKey_rename)
    (new : byKey (scope.new.rename r.new)
      = (byKey scope.new).map (TypeDecl.rename r.new) TypeDecl.linkKey_rename) (d : Direction) :
    (scope.rename r).loneTypes byKey d
      = (scope.loneTypes byKey d).map (TypeDecl.rename (r.holder d)) := by
  cases d
  all_goals
    simp only [loneTypes, rename, holder, other, old, new, Catalog.without_map, List.filter_map]
    rfl

section UserTypes

variable (old : scope.old.SameUserTypesUnder r.old (scope.old.rename r.old))
  (new : scope.new.SameUserTypesUnder r.new (scope.new.rename r.new))
include old new

theorem loneRecords_rename (d : Direction) :
    (scope.rename r).loneRecords d = (scope.loneRecords d).map (LoneChange.rename r) := by
  unfold loneRecords
  rw [loneTypes_rename old.records new.records, List.filterMap_map, List.map_filterMap]
  refine congrArg (fun h => List.filterMap h _) (funext fun t => ?_)
  simp only [Function.comp_apply, TypeDecl.record?_rename, Option.map_map]
  rfl

theorem loneEnums_rename (d : Direction) :
    (scope.rename r).loneEnums d = (scope.loneEnums d).map (LoneChange.rename r) := by
  unfold loneEnums
  rw [loneTypes_rename old.enums new.enums, List.filterMap_map, List.map_filterMap]
  refine congrArg (fun h => List.filterMap h _) (funext fun t => ?_)
  simp only [Function.comp_apply, TypeDecl.enum?_rename, Option.map_map]
  rfl

end UserTypes

theorem loneChanges_rename (scope : Scope)
    (old : scope.old.SameUserTypesUnder r.old (scope.old.rename r.old))
    (new : scope.new.SameUserTypesUnder r.new (scope.new.rename r.new)) :
    (scope.rename r).loneChanges = scope.loneChanges.map (LoneChange.rename r) := by
  have policy : (scope.rename r).policy = scope.policy := rfl
  unfold loneChanges
  simp only [policy, loneFunctions_rename, loneGlobals_rename, loneRecords_rename old new,
    loneEnums_rename old new]
  split <;> simp only [List.map_append]

/-! ## The walk -/

/-- The walk under other ids is the walk under the ids of before.  Ids that do not resolve are
taken to match, so that their spelling does not count. -/
theorem sameUnder_rename (matching : scope.policy.opaqueDiffers = false)
    (old : scope.old.KeptApart r.old) (new : scope.new.KeptApart r.new) :
    scope.SameUnder r (· ∈ scope.old.mentions) (· ∈ scope.new.mentions) (scope.rename r) where
  old := Interface.sameUnder_rename old
  new := Interface.sameUnder_rename new
  ignores _ := rfl
  unresolved {a b} _ _ := by
    have matching' : (scope.rename r).policy.opaqueDiffers = false := matching
    rw [compareUnresolved, compareUnresolved, matching, matching']
    rfl

theorem walk_follows_rename (r : Renaming) (scope : Scope)
    (matching : scope.policy.opaqueDiffers = false)
    (old : scope.old.KeptApart r.old) (new : scope.new.KeptApart r.new)
    (distinctOld : scope.old.DistinctUserTypes) (distinctNew : scope.new.DistinctUserTypes) :
    Follows r (Walk.Within (· ∈ scope.old.mentions) (· ∈ scope.new.mentions)) id scope.walk
      (scope.rename r).walk := by
  have same := sameUnder_rename matching old new
  have policy : (scope.rename r).policy = scope.policy := rfl
  have exported := same.walkExports (Interface.sameExports_rename scope.old r.old)
    (Interface.sameExports_rename scope.new r.new) fun e listed {_ _ _} part =>
      written_of_export listed part
  unfold walk
  refine exported.bind fun _ => ?_
  rw [policy]
  split
  · exact same.walkUserTypes (Interface.sameUserTypes_rename old distinctOld)
      (Interface.sameUserTypes_rename new distinctNew) fun e listed {_ _ _} part =>
        written_of_userType listed part
  · exact .pure rfl

end Scope

/-! ## Whole comparisons -/

theorem Verdict.breaks_rename (r : Renaming) (f : Finding) :
    breaks (f.rename r) = breaks f := by
  show (f.reach == .referenced && (f.change.rename r).isIncompatible) = breaks f
  rw [Change.isIncompatible_rename]
  rfl

theorem Verdict.addsValues_rename (r : Renaming) (f : Finding) :
    addsValues (f.rename r) = addsValues f := by
  obtain ⟨reach, path, change⟩ := f
  cases change <;> rfl

theorem Verdict.ofFindings_rename (r : Renaming) (findings : List Finding)
    (lone : List LoneChange) (symbols : List SymbolChange) :
    ofFindings (findings.map (Finding.rename r)) (lone.map (LoneChange.rename r)) symbols
      = ofFindings findings lone symbols := by
  have breaks : breaks ∘ Finding.rename r = breaks := funext (breaks_rename r)
  have addsValues : addsValues ∘ Finding.rename r = addsValues := funext (addsValues_rename r)
  have reach (c : LoneChange) : (c.rename r).entity.reach = c.entity.reach :=
    c.entity.reach_rename
  have direction (c : LoneChange) : (c.rename r).direction = c.direction := rfl
  have found (f : Finding) : (f.rename r).reach = f.reach := rfl
  simp only [ofFindings, List.any_map, breaks, addsValues, Function.comp_def, reach, direction,
    found]

/-- Ids are handles only: where ids that do not resolve are taken to match, and where no two
user-defined types of a kind share a key, a comparison under other ids says what it said. -/
theorem compare_rename (r : Renaming) {old new : Interface} {policy : Policy}
    (matching : policy.opaqueDiffers = false) (apartOld : old.KeptApart r.old)
    (apartNew : new.KeptApart r.new) (distinctOld : old.DistinctUserTypes)
    (distinctNew : new.DistinctUserTypes) :
    let before := compare old new policy
    let after := compare (old.rename r.old) (new.rename r.new) policy
    after.verdict = before.verdict
      ∧ after.findings = before.findings.map (Finding.rename r)
      ∧ after.lone = before.lone.map (LoneChange.rename r)
      ∧ after.symbols = before.symbols := by
  intro before after
  let scope : Scope := ⟨old, new, policy⟩
  obtain ⟨walked, -⟩ := Scope.walk_follows_rename r scope matching apartOld apartNew distinctOld
    distinctNew .start (Walk.within_start _ _)
  have findings : after.findings = before.findings.map (Finding.rename r) :=
    congrArg (fun result => result.2.findings) walked
  have lone : after.lone = before.lone.map (LoneChange.rename r) :=
    scope.loneChanges_rename (Interface.sameUserTypes_rename apartOld distinctOld)
      (Interface.sameUserTypes_rename apartNew distinctNew)
  have symbols : after.symbols = before.symbols :=
    scope.allSymbolChanges_rename r
  refine ⟨?_, findings, lone, symbols⟩
  show Verdict.ofFindings after.findings after.lone after.symbols
    = .ofFindings before.findings before.lone before.symbols
  rw [findings, lone, symbols, Verdict.ofFindings_rename]

/-- Nodes that point to each other, with a content that is defined elsewhere, and a record that
nothing exported reaches. -/
def linkedNodes (room : UInt64) : Interface :=
  { Interface.empty with
    types := .ofList [
      ⟨"n", "node", "", "node", "", room, 8,
        .record ⟨[⟨"next", "p", 0, .pub⟩, ⟨"content", "o", 64, .pub⟩], [], [], .structRecord,
          false, [], .pub⟩⟩,
      ⟨"p", "node *", "", "node *", "n", 8, 8, .pointer⟩,
      ⟨"u", "unused", "", "unused", "", room, 8,
        .record ⟨[⟨"node", "n", 0, .pub⟩], [], [], .structRecord, false, [], .pub⟩⟩]
    globals := .ofList [⟨"head", "", "head", "p", .pub⟩] }

/-- Exchanges the ids of the two records in the old version, and gives other ids to the pointer
and to what is defined elsewhere in the new one. -/
def exchanged : Renaming where
  old id := if id = "n" then "u" else if id = "u" then "n" else id
  new id := if id = "p" then "a" else if id = "o" then "p" else id

theorem linkedNodes_renamed :
    let policy : Policy := { Policy.plain with checkAll := true }
    let before := compare (linkedNodes 16) (linkedNodes 24) policy
    let after := compare ((linkedNodes 16).rename exchanged.old)
      ((linkedNodes 24).rename exchanged.new) policy
    policy.opaqueDiffers = false
      ∧ (linkedNodes 16).KeptApart exchanged.old ∧ (linkedNodes 24).KeptApart exchanged.new
      ∧ (linkedNodes 16).DistinctUserTypes ∧ (linkedNodes 24).DistinctUserTypes
      ∧ after.verdict = before.verdict
      ∧ after.findings = before.findings.map (Finding.rename exchanged)
      ∧ after.lone = before.lone.map (LoneChange.rename exchanged)
      ∧ after.symbols = before.symbols
      ∧ before.findings.map (fun f => (f.reach, f.path))
        = [(.referenced, ["head", "node *", "node"]), (.unreferenced, ["unused"])] := by
  have old : (linkedNodes 16).KeptApart exchanged.old := by decide
  have new : (linkedNodes 24).KeptApart exchanged.new := by decide
  have distinctOld : (linkedNodes 16).DistinctUserTypes := ⟨by decide, by decide⟩
  have distinctNew : (linkedNodes 24).DistinctUserTypes := ⟨by decide, by decide⟩
  intro policy before after
  have matching : policy.opaqueDiffers = false := rfl
  obtain ⟨verdict, findings, lone, symbols⟩ :=
    compare_rename exchanged matching old new distinctOld distinctNew
  exact ⟨matching, old, new, distinctOld, distinctNew, verdict, findings, lone, symbols, by decide⟩

end AbiCompat
