/-
# Keys that are left out

A key that the policy leaves out is neither compared nor listed, whether it is that of an exported
name or that of a type which the walk meets on its way.

Only the lists of dynamic symbols do not ask the policy: a symbol that came or went is listed by
its name although the name is a key that is left out, and if it went, the verdict tells.

## What is proved

Nothing at all is said about a key that is left out exactly if no symbol of that name would be
listed otherwise.  For a version that loses a function together with its symbol, the policy that
leaves the function out still finds the versions incompatible with each other; if symbols that may
go are weak and go unlisted, nothing is said.

The proof about findings goes by their sources: every finding is about a pair that some look has
reported, and a look begins with asking the policy (`kept_of_finding`).  What came or went is
filtered by the policy at the outset, but for symbols.

## What is not

A type that is left out is not opened, so that what differs inside it is not found through it; what
is reached some other way is.  Which one it is is the matter of the walk and not of this module.
-/
import AbiCompat.Proofs.Listings
import AbiCompat.Proofs.Paths
import AbiCompat.Proofs.Walk.Found

namespace AbiCompat

/-- The keys that a change is about; a change of a type is about the key of the new one. -/
def Change.keys : Change → List String
  | record c => [c.new.linkKey]
  | enum c => [c.new.linkKey]
  | function f g => [f.linkKey, g.linkKey]
  | global f g => [f.linkKey, g.linkKey]

theorem Change.keys_of_types {c : Change} {s t : TypeDecl} (types : c.types? = some (s, t)) :
    c.keys = [t.linkKey] := by
  cases c <;> cases types <;> rfl

theorem Change.OfType.types?_ne_none {c : Change} (h : c.OfType) : c.types? ≠ none := by
  cases h <;> exact Option.some_ne_none _

namespace Scope

variable {scope : Scope}

/-! ## Findings -/

theorem kept_of_finds {e : Entry} {c : Change} (listed : e ∈ scope.exports) (found : e.Finds c)
    (declared : c.types? = none) : ∀ k ∈ c.keys, scope.policy.ignores k = false := by
  cases found with
  | ofType type => exact absurd declared type.types?_ne_none
  | function same change =>
      subst same change
      have common := commonFunction_of_entry (.inl listed)
      simp [Change.keys, Catalog.key_of_find? common.new, common.kept]
  | global same change =>
      subst same change
      have common := commonGlobal_of_entry (.inl listed)
      simp [Change.keys, Catalog.key_of_find? common.new, common.kept]

/-- Findings are about keys that are kept. -/
theorem kept_of_finding (scope : Scope) {f : Finding}
    (found : f ∈ (scope.walk.run .start).2.findings) :
    ∀ k ∈ f.change.keys, scope.policy.ignores k = false := by
  rcases scope.walk_allOnWays f found with declared | ⟨names, p, begins, onWay⟩
  · obtain ⟨exported, others, split, reached, types, -⟩ :=
      findings_split scope.old scope.new scope.policy
    rw [← findings_compare, split] at found
    rcases List.mem_append.mp found with inUse | unused
    · obtain ⟨-, e, listed, finds⟩ := reached f inUse
      exact kept_of_finds listed finds declared
    · exact absurd declared (types f unused).2.types?_ne_none
  · obtain ⟨-, q, way, s, t, -, resolves, types, -⟩ := onWay
    intro k mem
    rw [Change.keys_of_types types] at mem
    cases List.mem_singleton.mp mem
    exact resolves.kept

/-! ## What came or went -/

theorem kept_of_lone (scope : Scope) {c : LoneChange} (listed : c ∈ scope.loneChanges) :
    scope.policy.ignores c.entity.key = false := by
  rw [loneChanges_eq] at listed
  obtain ⟨kind, -, listed⟩ := List.mem_flatMap.mp listed
  obtain ⟨d, -, listed⟩ := List.mem_flatMap.mp listed
  obtain ⟨e, mem, rfl⟩ := List.mem_map.mp listed
  exact (((scope.lists_loneEntities kind d).keys e.key).mp ⟨e, mem, rfl⟩).kept

theorem exists_symbolChange_iff (scope : Scope) (name : String) :
    (∃ c ∈ scope.allSymbolChanges, c.symbol.name = name) ↔
      ∃ kind d, scope.ListsSymbol kind d name := by
  rw [allSymbolChanges_eq]
  constructor
  · rintro ⟨c, listed, rfl⟩
    obtain ⟨kind, -, listed⟩ := List.mem_flatMap.mp listed
    obtain ⟨d, -, listed⟩ := List.mem_flatMap.mp listed
    obtain ⟨s, mem, rfl⟩ := List.mem_map.mp listed
    exact ⟨kind, d, ((scope.lists_loneSymbols kind d).keys s.name).mp ⟨s, mem, rfl⟩⟩
  · rintro ⟨kind, d, lists⟩
    obtain ⟨s, mem, rfl⟩ := ((scope.lists_loneSymbols kind d).keys name).mpr lists
    refine ⟨⟨d, kind, s⟩, List.mem_flatMap.mpr ⟨kind, by cases kind <;> simp, ?_⟩, rfl⟩
    exact List.mem_flatMap.mpr ⟨d, by cases d <;> simp, List.mem_map_of_mem mem⟩

end Scope

/-- Nothing is found about a key that is left out, and no entity is listed under it.  A symbol of
that name is listed as if the key were not left out. -/
theorem nothing_about_ignored_iff (old new : Interface) {policy : Policy} {k : String}
    (ignored : policy.ignores k = true) :
    (∀ f ∈ (compare old new policy).findings, k ∉ f.change.keys)
      ∧ (∀ c ∈ (compare old new policy).lone, c.entity.key ≠ k)
      ∧ ((∀ c ∈ (compare old new policy).symbols, c.symbol.name ≠ k) ↔
        ∀ kind d, ¬ (Scope.mk old new policy).ListsSymbol kind d k) := by
  have dropped {key : String} (kept : policy.ignores key = false) : key ≠ k := by
    rintro rfl
    exact Bool.false_ne_true (kept.symm.trans ignored)
  refine ⟨?_, ?_, ?_⟩
  · intro f found mem
    exact dropped (Scope.kept_of_finding ⟨old, new, policy⟩ found k mem) rfl
  · intro c listed
    exact dropped (Scope.kept_of_lone ⟨old, new, policy⟩ listed)
  · have listed := not_congr (Scope.exists_symbolChange_iff ⟨old, new, policy⟩ k)
    simp only [not_exists, not_and] at listed
    exact listed

/-- A library of one function, with its symbol. -/
def oneFunction : Interface :=
  { Interface.empty with
    functions := .ofList [⟨"f", "", "f", ⟨"void", [], []⟩, .pub⟩]
    functionSymbols := .ofList [⟨"f", .global⟩] }

/-- The policy that leaves the function out. -/
def withoutFunction : Policy := { Policy.plain with ignored := KeySet.ofList ["f"] }

/-- A function that is left out may go, and its symbol may not. -/
theorem ignored_function_incompatible :
    withoutFunction.ignores "f" = true
      ∧ (compare oneFunction .empty withoutFunction).lone = []
      ∧ (compare oneFunction .empty withoutFunction).symbols.map (fun c => c.symbol.name) = ["f"]
      ∧ (compare oneFunction .empty withoutFunction).verdict.symbolsGone = true := by
  decide

/-- Weak symbols that may go are not listed, so that then nothing is said about the function. -/
theorem ignored_function_unmentioned :
    let old : Interface := { oneFunction with functionSymbols := .ofList [⟨"f", .weak⟩] }
    let policy : Policy := { withoutFunction with weakMayChange := true }
    policy.ignores "f" = true
      ∧ (∀ c ∈ (compare old .empty policy).findings, "f" ∉ c.change.keys)
      ∧ (∀ c ∈ (compare old .empty policy).lone, c.entity.key ≠ "f")
      ∧ ∀ c ∈ (compare old .empty policy).symbols, c.symbol.name ≠ "f" := by
  intro old policy
  have ignored : policy.ignores "f" = true := by decide
  obtain ⟨findings, lone, symbols⟩ := nothing_about_ignored_iff old .empty ignored
  refine ⟨ignored, findings, lone, symbols.mpr ?_⟩
  rintro kind d ⟨⟨s, mem, name⟩, unexcused⟩
  cases kind with
  | object => cases d <;> exact absurd mem List.not_mem_nil
  | function =>
      cases d with
      | added => exact absurd mem List.not_mem_nil
      | removed =>
          have strong := unexcused.strong rfl s mem name
          cases List.mem_singleton.mp mem
          cases strong

end AbiCompat
