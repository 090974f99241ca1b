/-
# More lenient policies

A policy is more lenient than another one when it leaves out all that the other one leaves out, and
counts no more types that do not resolve and no more weak symbols.  A more lenient policy lets a
walk see less: fewer declarations, fewer parts, fewer differences.

## What is proved

Whatever breaks callers under the more lenient policy breaks them under the other one
(`Breaks.strict`).  The walk under the other policy finds it too, as long as no difference is
dropped there:

    (no pair that is dropped differs under the stricter policy)
      →  a more lenient one does not give an incompatible verdict where the stricter one gives none

Without that, it fails.  A declaration that only the stricter walk compares may drop a difference
that both could find: in a library with a function that has a type for a template argument, and a
variable of that type, the variable is found when the function is left out and not otherwise.

## What is not

Of two verdicts no more is compared than whether they are incompatible; a dynamic symbol that is
gone is another flag.  The lists of two outcomes are not compared either: a finding may well have
other fields in it when the walk came another way.
-/
import AbiCompat.Proofs.Breaks
import AbiCompat.Proofs.Walk.Found

namespace AbiCompat

/-- The first policy is more lenient than the second one, or the same.  Whether all types are
compared does not matter to what exported names do. -/
structure Policy.Relaxes (q p : Policy) : Prop where
  ignored : ∀ key, p.ignores key = true → q.ignores key = true
  unresolved : q.opaqueDiffers = true → p.opaqueDiffers = true
  weak : p.weakMayChange = true → q.weakMayChange = true

section Relaxed

variable {old new : Interface} {p q : Policy}

theorem Policy.Relaxes.kept (relaxes : q.Relaxes p) {key : String}
    (h : q.ignores key = false) : p.ignores key = false := by
  refine Bool.eq_false_iff.mpr ?_
  intro ignored
  rw [relaxes.ignored key ignored] at h
  cases h

/-! ## Less is seen

Each of these has the form that what the lenient scope sees the strict scope sees as well.  Types
that do not resolve are the one place where the policies are asked for more than a key. -/

namespace Scope

theorem Resolves.strict (relaxes : q.Relaxes p) {a b : String} {s t : TypeDecl}
    (h : (Scope.mk old new q).Resolves a b s t) : (Scope.mk old new p).Resolves a b s t :=
  ⟨h.old, h.new, relaxes.kept h.kept⟩

theorem Parts.strict (relaxes : q.Relaxes p) {use : Use} {x y : String × String}
    (h : (Scope.mk old new q).Parts use x y) : (Scope.mk old new p).Parts use x y := by
  obtain ⟨s, t, resolves, part⟩ := h
  exact ⟨s, t, resolves.strict relaxes, part⟩

theorem compareUnresolved_strict (relaxes : q.Relaxes p) {a b : String}
    (h : compareUnresolved q a b = .unresolved) : compareUnresolved p a b = .unresolved := by
  unfold compareUnresolved at h ⊢
  cases counts : q.opaqueDiffers with
  | false =>
      rw [counts] at h
      cases h
  | true =>
      rw [counts] at h
      rw [relaxes.unresolved counts]
      exact h

theorem DiffersHere.strict (relaxes : q.Relaxes p) {x : String × String}
    (h : (Scope.mk old new q).DiffersHere x) : (Scope.mk old new p).DiffersHere x := by
  cases h with
  | unresolved missing out => exact .unresolved missing (compareUnresolved_strict relaxes out)
  | types resolves differs => exact .types (resolves.strict relaxes) differs

theorem DirectlyDiffers.strict (relaxes : q.Relaxes p) {x : String × String}
    (h : (Scope.mk old new q).DirectlyDiffers x) : (Scope.mk old new p).DirectlyDiffers x := by
  induction h with
  | here h => exact .here (h.strict relaxes)
  | through passes _ ih => exact .through (passes.strict relaxes) ih

theorem SignaturesDiffer.strict (relaxes : q.Relaxes p) {s t : Signature}
    (h : (Scope.mk old new q).SignaturesDiffer s t) :
    (Scope.mk old new p).SignaturesDiffer s t := by
  rcases h with here | ⟨a, b, part, differs⟩
  · exact .inl here
  · exact .inr ⟨a, b, part, differs.strict relaxes⟩

theorem FieldsDiffer.strict (relaxes : q.Relaxes p) {x y : Field}
    (h : (Scope.mk old new q).FieldsDiffer x y) : (Scope.mk old new p).FieldsDiffer x y :=
  h.imp_right fun h => h.imp_right fun differs => differs.strict relaxes

theorem LayoutBreaks.strict (relaxes : q.Relaxes p) {s t : TypeDecl} {a b : RecordLayout}
    (h : (Scope.mk old new q).LayoutBreaks s t a b) :
    (Scope.mk old new p).LayoutBreaks s t a b := by
  rcases h with size | alignment | vtable | access | bases | changed | removed
  · exact .inl size
  · exact .inr (.inl alignment)
  · exact .inr (.inr (.inl vtable))
  · exact .inr (.inr (.inr (.inl access)))
  · refine .inr (.inr (.inr (.inr (.inl ?_))))
    rcases bases with length | ⟨x, y, mem, differ⟩
    · exact .inl length
    · exact .inr ⟨x, y, mem, differ.imp_right fun differs => differs.strict relaxes⟩
  · obtain ⟨x, y, name, named, hx, hy, differ⟩ := changed
    exact .inr (.inr (.inr (.inr (.inr
      (.inl ⟨x, y, name, named, hx, hy, differ.strict relaxes⟩)))))
  · obtain ⟨x, mem, without, differ⟩ := removed
    exact .inr (.inr (.inr (.inr (.inr
      (.inr ⟨x, mem, without, fun y found => (differ y found).strict relaxes⟩)))))

theorem TypesBreak.strict (relaxes : q.Relaxes p) {x : String × String}
    (h : (Scope.mk old new q).TypesBreak x) : (Scope.mk old new p).TypesBreak x := by
  cases h with
  | record resolves hs ht key breaks =>
      exact .record (resolves.strict relaxes) hs ht key (breaks.strict relaxes)
  | enum resolves hs ht key breaks => exact .enum (resolves.strict relaxes) hs ht key breaks

theorem exports_strict (relaxes : q.Relaxes p) :
    (Scope.mk old new q).exports ⊆ (Scope.mk old new p).exports := by
  intro e listed
  rcases mem_exports.mp listed with ⟨f, g, common, rfl⟩ | ⟨f, g, common, rfl⟩
  · exact mem_exports.mpr (.inl ⟨f, g, ⟨common.old, common.new, relaxes.kept common.kept⟩, rfl⟩)
  · exact mem_exports.mpr (.inr ⟨f, g, ⟨common.old, common.new, relaxes.kept common.kept⟩, rfl⟩)

theorem LedTo.strict (relaxes : q.Relaxes p) {entries : List Entry} {x : String × String}
    (h : (Scope.mk old new q).LedTo entries x) : (Scope.mk old new p).LedTo entries x := by
  induction h with
  | root mem part => exact .root mem part
  | part _ part ih => exact .part ih (part.strict relaxes)

/-- What breaks callers under the more lenient policy breaks them under the other one. -/
theorem Breaks.strict (relaxes : q.Relaxes p) {entries : List Entry}
    (h : (Scope.mk old new q).Breaks entries) : (Scope.mk old new p).Breaks entries := by
  cases h with
  | function mem differ =>
      exact .function mem (differ.imp_right fun differ => differ.strict relaxes)
  | global mem differ =>
      exact .global mem (differ.imp_right fun differs => differs.strict relaxes)
  | types led breaks => exact .types (led.strict relaxes) (breaks.strict relaxes)

/-! ## Names that came or went -/

theorem listsName_strict (relaxes : q.Relaxes p) {own others : Catalog Symbol.name}
    {key : String} (h : (Scope.mk old new q).listsName own others key = true) :
    (Scope.mk old new p).listsName own others key = true := by
  simp only [listsName, Bool.and_eq_true, Bool.not_eq_true', Bool.and_eq_false_iff] at h ⊢
  obtain ⟨⟨⟨kept, gone⟩, strong⟩, stable⟩ := h
  refine ⟨⟨⟨relaxes.kept kept, gone⟩, strong.imp_left ?_⟩, stable⟩
  intro weak
  refine Bool.eq_false_iff.mpr fun may => ?_
  rw [relaxes.weak may] at weak
  cases weak

theorem loneFunctions_strict (relaxes : q.Relaxes p) (d : Direction) :
    (Scope.mk old new q).loneFunctions d ⊆ (Scope.mk old new p).loneFunctions d := by
  intro c mem
  obtain ⟨f, listed, rfl⟩ := List.mem_map.mp mem
  obtain ⟨lone, lists⟩ := List.mem_filter.mp listed
  exact List.mem_map_of_mem (List.mem_filter.mpr ⟨lone, listsName_strict relaxes lists⟩)

theorem loneGlobals_strict (relaxes : q.Relaxes p) (d : Direction) :
    (Scope.mk old new q).loneGlobals d ⊆ (Scope.mk old new p).loneGlobals d := by
  intro c mem
  obtain ⟨g, listed, rfl⟩ := List.mem_map.mp mem
  obtain ⟨lone, lists⟩ := List.mem_filter.mp listed
  exact List.mem_map_of_mem (List.mem_filter.mpr ⟨lone, listsName_strict relaxes lists⟩)

end Scope

end Relaxed

namespace Scope

variable {scope : Scope}

theorem mem_loneChanges_of_referenced {c : LoneChange} (reach : c.entity.reach = .referenced) :
    c ∈ scope.loneChanges ↔ ∃ d, c ∈ scope.loneFunctions d ∨ c ∈ scope.loneGlobals d := by
  have records (d : Direction) : c ∉ scope.loneRecords d := by
    intro mem
    obtain ⟨t, -, made⟩ := List.mem_filterMap.mp mem
    obtain ⟨layout, -, rfl⟩ := Option.map_eq_some_iff.mp made
    cases reach
  have enums (d : Direction) : c ∉ scope.loneEnums d := by
    intro mem
    obtain ⟨t, -, made⟩ := List.mem_filterMap.mp mem
    obtain ⟨layout, -, rfl⟩ := Option.map_eq_some_iff.mp made
    cases reach
  have exported : c ∈ scope.loneChanges ↔ ((c ∈ scope.loneFunctions .removed
      ∨ c ∈ scope.loneFunctions .added) ∨ c ∈ scope.loneGlobals .removed)
      ∨ c ∈ scope.loneGlobals .added := by
    simp only [loneChanges]
    split <;> simp [records, enums, or_assoc]
  rw [exported]
  constructor
  · rintro (((h | h) | h) | h)
    · exact ⟨.removed, .inl h⟩
    · exact ⟨.added, .inl h⟩
    · exact ⟨.removed, .inr h⟩
    · exact ⟨.added, .inr h⟩
  · rintro ⟨d, h | h⟩ <;> cases d <;> simp [h]

/-! ## Verdicts

The walk over the exported declarations, and what the verdict makes of it and of the names that
came or went.  What exported declarations drop is dropped in the sense of `Breaks`. -/

/-- The walk over the exported declarations, and what the verdict makes of it and of the names
that came or went. -/
theorem isIncompatible_compare_iff (scope : Scope) :
    ∃ w, scope.Tour .referenced .start scope.exports w
      ∧ ((compare scope.old scope.new scope.policy).verdict.isIncompatible = true ↔ w.Broken
        ∨ ∃ c ∈ scope.loneChanges, c.direction = .removed ∧ c.entity.reach = .referenced) := by
  obtain ⟨w, exported, rest⟩ := scope.walk_tour
  refine ⟨w, exported, ?_⟩
  have lone : (compare scope.old scope.new scope.policy).lone = scope.loneChanges := rfl
  rw [verdict_compare, Verdict.isIncompatible_ofFindings, Bool.or_eq_true, List.any_eq_true,
    List.any_eq_true, lone]
  refine or_congr ?_ (by simp only [Bool.and_eq_true, beq_iff_eq])
  constructor
  · rintro ⟨f, found, breaks⟩
    obtain ⟨more, eq, others⟩ := rest.finds
    rw [findings_compare] at found
    rcases List.mem_append.mp (eq ▸ found : f ∈ w.findings ++ more) with first | later
    · exact ⟨f, first, breaks⟩
    -- what is found in types that nothing exported reaches breaks no caller
    · rw [Verdict.breaks, (others f later).1] at breaks
      cases breaks
  · rintro ⟨f, found, breaks⟩
    exact ⟨f, rest.grows.findings found, breaks⟩

theorem LedTo.met {x : String × String} (h : scope.LedTo scope.exports x) : scope.Met x := by
  induction h with
  | root listed part => exact .root (exportPart_of_part listed part)
  | part _ part ih => exact .part ih part

theorem DroppedFrom.dropped {x : String × String} (h : scope.DroppedFrom scope.exports x) :
    scope.Dropped x := by
  cases h with
  | root listed part => exact .root (exportPart_of_part listed part)
  | part led part => exact .part led.met part

end Scope

/-- Where no difference is dropped, a more lenient policy gives no stricter verdict. -/
theorem isIncompatible_of_relaxes {old new : Interface} {p q : Policy} (relaxes : q.Relaxes p)
    (heeded : ∀ d, (Scope.mk old new p).Dropped d → ¬ (Scope.mk old new p).DirectlyDiffers d)
    (incompatible : (compare old new q).verdict.isIncompatible = true) :
    (compare old new p).verdict.isIncompatible = true := by
  obtain ⟨w, tour, verdict⟩ := (Scope.mk old new p).isIncompatible_compare_iff
  obtain ⟨v, tour', verdict'⟩ := (Scope.mk old new q).isIncompatible_compare_iff
  refine verdict.mpr ?_
  rcases verdict'.mp incompatible with broken | ⟨c, listed, gone, reach⟩
  · refine .inl ((Scope.broken_iff tour fun d dropped => heeded d dropped.dropped).mpr ?_)
    have breaks := (Scope.breaks_of_broken tour' broken).strict relaxes
    exact breaks.mono (Scope.exports_strict relaxes)
  · refine .inr ⟨c, (Scope.mem_loneChanges_of_referenced reach).mpr ?_, gone, reach⟩
    obtain ⟨d, mem⟩ := (Scope.mem_loneChanges_of_referenced reach).mp listed
    exact ⟨d, mem.imp (fun mem => Scope.loneFunctions_strict relaxes d mem)
      fun mem => Scope.loneGlobals_strict relaxes d mem⟩

/-- A library with a function that has the first type for a template argument, and a global
variable of the second one. -/
def argumentAndVariable (a b : String) : Interface :=
  { Interface.empty with
    types := .ofList [
      ⟨"i", "int", "", "int", "", 4, 4, .builtin ⟨false, true⟩⟩,
      ⟨"l", "long", "", "long", "", 8, 8, .builtin ⟨false, true⟩⟩]
    functions := .ofList [⟨"f", "", "f", ⟨"i", [], [a]⟩, .pub⟩]
    globals := .ofList [⟨"v", "", "v", b, .pub⟩] }

/-- The policy that leaves out one key. -/
def leavingOut (key : String) : Policy := { Policy.plain with ignored := KeySet.ofList [key] }

theorem leavingOut_relaxes (key : String) : (leavingOut key).Relaxes .plain :=
  ⟨fun _ ignored => absurd ignored Bool.false_ne_true, id, id⟩

/-- Where the template argument and the type of the variable change alike, the variable is found
when the function is left out, and not otherwise. -/
theorem lenient_yet_stricter :
    ¬ ∀ (old new : Interface) (p q : Policy), q.checkAll = p.checkAll → q.Relaxes p →
      (compare old new q).verdict.isIncompatible = true →
      (compare old new p).verdict.isIncompatible = true := by
  intro monotone
  have found := monotone (argumentAndVariable "i" "i") (argumentAndVariable "l" "l") .plain
    (leavingOut "f") rfl (leavingOut_relaxes "f") (by decide)
  revert found
  decide

/-- The two versions of the library in which only the type of the variable changes. -/
def variableChanges : Scope := ⟨argumentAndVariable "i" "i", argumentAndVariable "i" "l", .plain⟩

theorem variableChanges_heeded {d : String × String} (dropped : variableChanges.Dropped d) :
    ¬ variableChanges.DirectlyDiffers d := by
  have parts {use : Use} {x y : String × String} : ¬ variableChanges.Parts use x y :=
    Scope.not_parts_of_builtin (by decide)
  cases dropped with
  | part _ part => exact absurd part parts
  | root exported =>
      obtain ⟨common, part⟩ := exported
      cases List.mem_singleton.mp (Catalog.mem_of_mem_ofList common.old)
      cases Option.some.inj (common.new.symm.trans rfl)
      cases part with
      | argument _ mem =>
          cases List.mem_singleton.mp mem
          intro differs
          cases differs with
          | through passes => exact parts passes
          | here here =>
              have resolves : variableChanges.Resolves "i" "i" _ _ := ⟨rfl, rfl, rfl⟩
              have direct := (TypeDecl.differs_builtin_iff rfl rfl).mp
                (resolves.differsHere_iff.mp here)
              exact absurd direct (by decide)

/-- There the variable is found with the function and without it. -/
theorem variableChanges_relaxed :
    (leavingOut "f").Relaxes .plain
      ∧ (∀ d, variableChanges.Dropped d → ¬ variableChanges.DirectlyDiffers d)
      ∧ (compare variableChanges.old variableChanges.new
        (leavingOut "f")).verdict.isIncompatible = true
      ∧ (compare variableChanges.old variableChanges.new .plain).verdict.isIncompatible = true := by
  have relaxes := leavingOut_relaxes "f"
  have heeded (d : String × String) (dropped : variableChanges.Dropped d) :
      ¬ variableChanges.DirectlyDiffers d := variableChanges_heeded dropped
  have found : (compare variableChanges.old variableChanges.new
      (leavingOut "f")).verdict.isIncompatible = true := by decide
  exact ⟨relaxes, heeded, found, isIncompatible_of_relaxes relaxes heeded found⟩

end AbiCompat
