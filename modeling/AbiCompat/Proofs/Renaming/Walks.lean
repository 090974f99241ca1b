/-
# Walks under other ids

A walk meets a pair again under other ids exactly when it does so under the ones it has, since two
ids do not become one.  So it looks at the same pairs, in the same order and to the same depth, and
finds the same.

The induction is on the levels of comparisons: a comparison of one level is a look whose parts are
compared on the level below (`compareWithin`).  Only the pairs that a walk may come to have to be
kept apart; they are given as the pairs of two sets of ids that are closed under what types refer
to (`Walk.Within`).

This covers types that are spelled otherwise, and with no id renamed at all it covers interfaces
that have the same types where the walk comes, and policies that have the same rules for them.
-/
import AbiCompat.Proofs.Renaming.Looks
import AbiCompat.Proofs.Walk.Ending

namespace AbiCompat

/-- The pairs that were looked at are of ids of `A` and of `B`. -/
def Walk.Within (A B : String → Prop) (w : Walk) : Prop := ∀ p ∈ w.visited, A p.1 ∧ B p.2

theorem Walk.within_start (A B : String → Prop) : Walk.start.Within A B :=
  fun _ mem => absurd mem List.not_mem_nil

namespace Scope.SameUnder

variable {r : Renaming} {A B : String → Prop} {scope scope' : Scope} {visit visit' : Visit}
  {reach : Reach} {a b : String}

/-! ## Comparisons of ids -/

/-- A renamed pair is noted when the pair is. -/
theorem mem_visited_rename (same : scope.SameUnder r A B scope') (within : A a ∧ B b) {w : Walk}
    (noted : w.Within A B) : (r.old a, r.new b) ∈ (w.rename r).visited ↔ (a, b) ∈ w.visited := by
  simp only [Walk.rename, List.mem_map, Prod.map, Prod.mk.injEq]
  constructor
  · rintro ⟨p, mem, old, new⟩
    obtain ⟨ha, hb⟩ := noted p mem
    rw [← same.old.apart ha within.1 old, ← same.new.apart hb within.2 new]
    exact mem
  · intro mem
    exact ⟨(a, b), mem, rfl, rfl⟩

theorem enter_follows (within : A a ∧ B b) (name : String) :
    Follows r (Walk.Within A B) id (Walking.enter (a, b) name)
      (Walking.enter (r.old a, r.new b) name) := by
  intro w noted
  refine ⟨rfl, ?_⟩
  intro p mem
  rcases List.mem_cons.mp mem with rfl | mem
  · exact within
  · exact noted p mem

theorem resetStack_follows (names : List String) :
    Follows r (Walk.Within A B) id (Walking.resetStack names) (Walking.resetStack names) :=
  fun _ noted => ⟨rfl, noted⟩

theorem leave_follows :
    Follows r (Walk.Within A B) id Walking.leave Walking.leave :=
  fun _ noted => ⟨rfl, noted⟩

theorem compareFresh (same : scope.SameUnder r A B scope') (within : A a ∧ B b)
    (parts : ∀ {c d}, A c ∧ B d → FollowsAt r (Walk.Within A B) visit visit' c d) :
    FollowsAt r (Walk.Within A B) (scope.compareFresh visit reach)
      (scope'.compareFresh visit' reach) a b := by
  unfold FollowsAt
  rw [compareFresh_eq, compareFresh_eq, same.old.typeName within.1]
  refine (enter_follows within _).bind fun _ => ?_
  have look : FollowsAt r (Walk.Within A B) (scope.look visit reach) (scope'.look visit' reach)
      a b :=
    same.look (fun _ _ noted => noted) within fun part => parts (same.parts within part)
  exact look.bind fun d => leave_follows.bind fun _ => .pure rfl

theorem compareWithin (same : scope.SameUnder r A B scope') (depth : Nat) :
    ∀ {a b}, A a ∧ B b → FollowsAt r (Walk.Within A B) (scope.compareWithin reach depth)
      (scope'.compareWithin reach depth) a b := by
  induction depth with
  | zero => exact fun _ => .pure rfl
  | succ depth ih =>
      intro a b within w noted
      have met := same.mem_visited_rename within noted
      by_cases seen : (a, b) ∈ w.visited
      · rw [Invariant.compareWithin_run_noted seen,
          Invariant.compareWithin_run_noted (met.mpr seen)]
        exact ⟨rfl, noted⟩
      · rw [Invariant.compareWithin_run_fresh seen,
          Invariant.compareWithin_run_fresh (mt met.mp seen)]
        exact same.compareFresh within ih w noted

theorem compareIds (same : scope.SameUnder r A B scope') (within : A a ∧ B b) :
    FollowsAt r (Walk.Within A B) (scope.compareIds reach) (scope'.compareIds reach) a b := by
  -- the two walks have depths of their own, and more than enough is enough for both
  have deep := Nat.le_max_left scope.depth scope'.depth
  have deep' := Nat.le_max_right scope.depth scope'.depth
  rw [← compareWithin_eq_compareIds deep, ← compareWithin_eq_compareIds deep']
  exact same.compareWithin _ within

/-! ## Comparisons of declarations -/

theorem compareFunctions (same : scope.SameUnder r A B scope') {f g : FunctionDecl}
    (within : ∀ {use a b}, (Entry.function f g).Part use a b → A a ∧ B b) :
    Follows r (Walk.Within A B) id (scope.compareFunctions reach f g)
      (scope'.compareFunctions reach (f.rename r.old) (g.rename r.new)) := by
  rw [compareFunctions_eq, compareFunctions_eq]
  refine (resetStack_follows _).bind fun _ => ?_
  have signatures : Follows r (Walk.Within A B) id
      (compareSignatures (scope.compareIds reach) f.signature g.signature)
      (compareSignatures (scope'.compareIds reach) (f.signature.rename r.old)
        (g.signature.rename r.new)) :=
    compareSignatures_follows fun part => same.compareIds (within (.signature part))
  refine signatures.bind fun d => ?_
  refine (reportIf_follows (fun _ _ noted => noted) _ _).bind fun _ => ?_
  exact (resetStack_follows _).bind fun _ => .pure rfl

theorem compareGlobals (same : scope.SameUnder r A B scope') {f g : GlobalDecl}
    (within : ∀ {use a b}, (Entry.global f g).Part use a b → A a ∧ B b) :
    Follows r (Walk.Within A B) id (scope.compareGlobals reach f g)
      (scope'.compareGlobals reach (f.rename r.old) (g.rename r.new)) := by
  rw [compareGlobals_eq, compareGlobals_eq]
  refine (resetStack_follows _).bind fun _ => ?_
  refine (same.compareIds (within .global)).bind fun d => ?_
  refine (reportIf_follows (fun _ _ noted => noted) _ _).bind fun _ => ?_
  exact (resetStack_follows _).bind fun _ => .pure rfl

theorem compareUserTypes (same : scope.SameUnder r A B scope') {s t : TypeDecl}
    (within : ∀ {use a b}, (Entry.type s t).Part use a b → A a ∧ B b) :
    Follows r (Walk.Within A B) id (scope.compareUserTypes reach s t)
      (scope'.compareUserTypes reach (s.rename r.old) (t.rename r.new)) := by
  unfold Scope.compareUserTypes
  refine (resetStack_follows _).bind fun _ => ?_
  refine (same.compareIds (within .type)).bind fun d => ?_
  exact (resetStack_follows _).bind fun _ => .pure rfl

/-! ## Whole walks -/

theorem walkPairs (same : scope.SameUnder r A B scope') {α : Type} {key : α → String}
    {move move' : α → α} {step step' : α → α → Walking Difference}
    (keeps : ∀ x, key (move x) = key x) {pairs : List (α × α)}
    (steps : ∀ p ∈ scope.keptPairs key pairs,
      Follows r (Walk.Within A B) id (step p.1 p.2) (step' (move p.1) (move' p.2))) :
    Follows r (Walk.Within A B) id (scope.walkPairs key step pairs)
      (scope'.walkPairs key step' (pairs.map (Prod.map move move'))) := by
  induction pairs with
  | nil => exact .pure rfl
  | cons p pairs ih =>
      obtain ⟨x, y⟩ := p
      rw [List.map_cons, Prod.map_apply, Scope.walkPairs, Scope.walkPairs, keeps, same.ignores]
      cases ignored : scope.policy.ignores (key x) with
      | true =>
          rw [keptPairs, List.filter_cons_of_neg (by simp [ignored])] at steps
          exact ih steps
      | false =>
          rw [keptPairs, List.filter_cons_of_pos (by simp [ignored])] at steps
          exact (steps (x, y) List.mem_cons_self).bind fun _ =>
            ih fun p mem => steps p (List.mem_cons_of_mem _ mem)

end Scope.SameUnder

/-- Under other ids, the second interface exports the names of the first. -/
structure Interface.SameExportsUnder (ρ : String → String) (m m' : Interface) : Prop where
  functions : m'.functions = m.functions.map (FunctionDecl.rename ρ) FunctionDecl.linkKey_rename
  globals : m'.globals = m.globals.map (GlobalDecl.rename ρ) GlobalDecl.linkKey_rename

/-- Under other ids, the second interface has the user-defined types of the first. -/
structure Interface.SameUserTypesUnder (ρ : String → String) (m m' : Interface) : Prop where
  records : Scope.recordsByKey m'
    = (Scope.recordsByKey m).map (TypeDecl.rename ρ) TypeDecl.linkKey_rename
  enums : Scope.enumsByKey m'
    = (Scope.enumsByKey m).map (TypeDecl.rename ρ) TypeDecl.linkKey_rename

namespace Scope.SameUnder

variable {r : Renaming} {A B : String → Prop} {scope scope' : Scope}

theorem walkExports (same : scope.SameUnder r A B scope')
    (old : scope.old.SameExportsUnder r.old scope'.old)
    (new : scope.new.SameExportsUnder r.new scope'.new)
    (within : ∀ e ∈ scope.exports, ∀ {use a b}, e.Part use a b → A a ∧ B b) :
    Follows r (Walk.Within A B) id scope.walkExports scope'.walkExports := by
  unfold Scope.walkExports
  rw [old.functions, old.globals, new.functions, new.globals, Catalog.common_map,
    Catalog.common_map]
  refine (same.walkPairs FunctionDecl.linkKey_rename fun p kept => ?_).bind fun _ =>
    same.walkPairs GlobalDecl.linkKey_rename fun p kept => ?_
  · exact same.compareFunctions (within _ (List.mem_append_left _ (List.mem_map_of_mem kept)))
  · exact same.compareGlobals (within _ (List.mem_append_right _ (List.mem_map_of_mem kept)))

theorem walkUserTypes (same : scope.SameUnder r A B scope')
    (old : scope.old.SameUserTypesUnder r.old scope'.old)
    (new : scope.new.SameUserTypesUnder r.new scope'.new)
    (within : ∀ e ∈ scope.userTypes, ∀ {use a b}, e.Part use a b → A a ∧ B b) :
    Follows r (Walk.Within A B) id scope.walkUserTypes scope'.walkUserTypes := by
  unfold Scope.walkUserTypes
  rw [old.records, old.enums, new.records, new.enums, Catalog.common_map, Catalog.common_map]
  refine (same.walkPairs TypeDecl.linkKey_rename fun p kept => ?_).bind fun _ =>
    same.walkPairs TypeDecl.linkKey_rename fun p kept => ?_
  · exact same.compareUserTypes (within _ (List.mem_append_left _ (List.mem_map_of_mem kept)))
  · exact same.compareUserTypes (within _ (List.mem_append_right _ (List.mem_map_of_mem kept)))

end Scope.SameUnder

/-! ## The ids as they are -/

theorem Interface.SameExportsUnder.of_eq {m m' : Interface} (functions : m'.functions = m.functions)
    (globals : m'.globals = m.globals) : m.SameExportsUnder id m' where
  functions := functions.trans (Catalog.map_eq_self FunctionDecl.rename_id m.functions).symm
  globals := globals.trans (Catalog.map_eq_self GlobalDecl.rename_id m.globals).symm

/-- Where scopes are the same under the ids as they are, so are the walks over their exported
names. -/
theorem Scope.SameUnder.walkExports_eq {A B : String → Prop} {scope scope' : Scope}
    (same : scope.SameUnder .none A B scope') (old : scope.old.SameExportsUnder id scope'.old)
    (new : scope.new.SameExportsUnder id scope'.new)
    (within : ∀ e ∈ scope.exports, ∀ {use a b}, e.Part use a b → A a ∧ B b) :
    scope'.walkExports.run .start = scope.walkExports.run .start := by
  obtain ⟨runs, -⟩ := same.walkExports old new within .start (Walk.within_start A B)
  rw [Walk.rename_none, Walk.rename_none] at runs
  exact runs

end AbiCompat
