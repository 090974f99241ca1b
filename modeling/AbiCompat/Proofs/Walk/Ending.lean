/-
# Comparisons end

A comparison of two ids goes down from pairs to their parts, on graphs that may be cyclic.  It ends
because each look notes a pair, and there are finitely many: the pair it starts from, and those of
the ids that the types of the two interfaces have and refer to.

## What is proved

The program compares with a bound on the depth, for which it counts the ids of both versions.  The
recursion with no bound is `Scope.level`, one level of it, and `Scope.unrolled`, as many levels as
there may be looks under way at one time; what is deeper is left to any comparison whatever.

1. From the number of pairs on, nothing is left to it: whatever stands for what is deeper, the
   result is the comparison of the program.
2. The recursion with no bound has one solution, which is that comparison.
3. It looks at its own pairs only, and at each of them once; so does any number of comparisons on
   one walk, and so does the walk over two whole interfaces.

So the bound is not a part of the meaning of a comparison, and no property that is proved by way of
it depends on how large it is.

## How

There is room for as many looks within each other as there are pairs that are not noted yet
(`Walk.room`), and a look takes some of it.  Two recursions that are unrolled at least as deep as
there is room are in step.

## What is not

How many steps a look takes is not counted; that it goes through finite lists is plain from its
clauses.
-/
import AbiCompat.Proofs.Walk.Lockstep
import AbiCompat.Proofs.Walk.Once

namespace AbiCompat

/-- The pairs of ids that a comparison can meet. -/
def Scope.pairsFrom (scope : Scope) (a b : String) : Finset (String × String) :=
  insert a scope.old.ids.toFinset ×ˢ insert b scope.new.ids.toFinset

/-! ## The recursion -/

namespace Scope

/-- One level of the recursion: a pair that was looked at is the same, and a look at another one
leaves its parts to `visit`. -/
def level (scope : Scope) (reach : Reach) (visit : Visit) : Visit := fun a b => do
  if (← get).visited.contains (a, b) then return .same
  else scope.compareFresh visit reach a b

/-- The recursion with a number of looks within each other.  Where one more would begin, the
pair is left to `beyond`. -/
def unrolled (scope : Scope) (reach : Reach) (beyond : Visit) : Nat → Visit
  | 0 => fun a b => do
    if (← get).visited.contains (a, b) then return .same
    else beyond a b
  | depth + 1 => scope.level reach (scope.unrolled reach beyond depth)

variable {scope : Scope} {reach : Reach} {visit visit' beyond beyond' : Visit} {a b : String}
  {w : Walk}

theorem level_run_noted (noted : (a, b) ∈ w.visited) :
    (scope.level reach visit a b).run w = (.same, w) := by
  show (if w.visited.contains (a, b) then pure Difference.same
    else scope.compareFresh visit reach a b : Walking _).run w = _
  rw [if_pos (List.contains_iff_mem.mpr noted)]
  rfl

theorem level_run_fresh (fresh : (a, b) ∉ w.visited) :
    (scope.level reach visit a b).run w = (scope.compareFresh visit reach a b).run w := by
  show (if w.visited.contains (a, b) then pure Difference.same
    else scope.compareFresh visit reach a b : Walking _).run w = _
  rw [if_neg fun found => fresh (List.contains_iff_mem.mp found)]

theorem unrolled_zero_run (beyond : Visit) (a b : String) (w : Walk) :
    (scope.unrolled reach beyond 0 a b).run w
      = if (a, b) ∈ w.visited then (.same, w) else (beyond a b).run w := by
  show (if w.visited.contains (a, b) then pure Difference.same else beyond a b : Walking _).run w
    = _
  simp only [List.contains_iff_mem]
  split <;> rfl

theorem unrolled_run_noted {depth : Nat} (noted : (a, b) ∈ w.visited) :
    (scope.unrolled reach beyond depth a b).run w = (.same, w) := by
  cases depth with
  | zero => rw [unrolled_zero_run, if_pos noted]
  | succ depth => exact level_run_noted noted

theorem compareWithin_eq_unrolled (depth : Nat) :
    scope.compareWithin reach depth = scope.unrolled reach (fun _ _ => pure .same) depth := by
  induction depth with
  | zero =>
      funext a b w
      show _ = (scope.unrolled reach _ 0 a b).run w
      rw [unrolled_zero_run]
      split <;> rfl
  | succ depth ih =>
      funext a b w
      show (scope.compareWithin reach (depth + 1) a b).run w
        = (scope.level reach (scope.unrolled reach _ depth) a b).run w
      rw [← ih]
      by_cases noted : (a, b) ∈ w.visited
      · rw [Invariant.compareWithin_run_noted noted, level_run_noted noted]
      · rw [Invariant.compareWithin_run_fresh noted, level_run_fresh noted]

/-! ## The depth that is used -/

theorem compareFresh_inStep {good : Walk → Prop}
    (reports : ∀ w change, good w → good (w.report reach change))
    (leaves : ∀ w, good w → good w.leave)
    (parts : ∀ {use c d}, scope.Parts use (a, b) (c, d) → InStep good (visit c d) (visit' c d))
    (entered : good (w.enter (a, b) (scope.old.typeName a))) :
    (scope.compareFresh visit reach a b).run w = (scope.compareFresh visit' reach a b).run w
      ∧ good ((scope.compareFresh visit reach a b).run w).2 := by
  obtain ⟨same, kept⟩ := look_inStep reports scope parts _ entered
  rw [compareFresh_eq, compareFresh_eq]
  refine ⟨?_, leaves _ kept⟩
  exact congrArg (fun x : Difference × Walk => (x.1, x.2.leave)) same

variable {A B : Finset String}

/-- Recursions that are unrolled at least as deep as there is room are in step, whatever they
leave the rest to. -/
theorem unrolled_inStep (hA : ∀ id ∈ scope.old.ids, id ∈ A) (hB : ∀ id ∈ scope.new.ids, id ∈ B)
    (room : Nat) : ∀ {depth depth' : Nat}, room ≤ depth → room ≤ depth' →
      ∀ {a b : String}, a ∈ A ∧ b ∈ B → InStep (fun w => w.room A B ≤ room)
        (scope.unrolled reach beyond depth a b) (scope.unrolled reach beyond' depth' a b) := by
  induction room with
  | zero =>
      -- with no room left the pair is noted
      rintro depth depth' - - a b ⟨ha, hb⟩ w full
      have noted := Walk.mem_visited_of_room ha hb full
      rw [unrolled_run_noted noted, unrolled_run_noted noted]
      exact ⟨rfl, full⟩
  | succ room ih =>
      rintro (_ | depth) (_ | depth') deep deep' a b ⟨ha, hb⟩ w start
      · exact absurd deep (Nat.not_succ_le_zero _)
      · exact absurd deep (Nat.not_succ_le_zero _)
      · exact absurd deep' (Nat.not_succ_le_zero _)
      by_cases noted : (a, b) ∈ w.visited
      · rw [unrolled_run_noted noted, unrolled_run_noted noted]
        exact ⟨rfl, start⟩
      · -- the look takes up room, so that its parts have one level less to go
        have entered : (w.enter (a, b) (scope.old.typeName a)).room A B ≤ room :=
          Nat.le_of_lt_succ (Nat.lt_of_lt_of_le (Walk.room_enter_lt ha hb noted) start)
        have parts {use : Use} {c d : String} (part : scope.Parts use (a, b) (c, d)) :
            InStep (fun w => w.room A B ≤ room) (scope.unrolled reach beyond depth c d)
              (scope.unrolled reach beyond' depth' c d) := by
          obtain ⟨s, t, resolves, part⟩ := part
          obtain ⟨hc, hd⟩ := resolves.mem_ids part
          exact ih (Nat.le_of_succ_le_succ deep) (Nat.le_of_succ_le_succ deep') ⟨hA _ hc, hB _ hd⟩
        obtain ⟨same, kept⟩ :=
          compareFresh_inStep (fun _ _ h => h) (fun _ h => h) parts entered
        rw [unrolled, unrolled, level_run_fresh noted, level_run_fresh noted]
        exact ⟨same, Nat.le_succ_of_le kept⟩

/-- A comparison is the recursion, unrolled as deep as there is room or deeper. -/
theorem unrolled_run {depth : Nat} (a b : String) (w : Walk)
    (deep : w.room (insert a scope.old.ids.toFinset) (insert b scope.new.ids.toFinset) ≤ depth) :
    (scope.unrolled reach beyond depth a b).run w = (scope.compareIds reach a b).run w := by
  rw [compareIds, compareWithin_eq_unrolled]
  have bound : w.room (insert a scope.old.ids.toFinset) (insert b scope.new.ids.toFinset)
      ≤ scope.depth := Invariant.room_le_depth w a b
  exact (unrolled_inStep (fun _ h => Finset.mem_insert_of_mem (List.mem_toFinset.mpr h))
    (fun _ h => Finset.mem_insert_of_mem (List.mem_toFinset.mpr h)) _ deep bound
    ⟨Finset.mem_insert_self _ _, Finset.mem_insert_self _ _⟩ w (Nat.le_refl _)).1

theorem compareWithin_eq_compareIds {depth : Nat} (deep : scope.depth ≤ depth) :
    scope.compareWithin reach depth = scope.compareIds reach := by
  funext a b w
  rw [compareWithin_eq_unrolled]
  exact unrolled_run a b w ((Invariant.room_le_depth w a b).trans deep)

theorem room_le_pairsFrom (w : Walk) (a b : String) :
    w.room (insert a scope.old.ids.toFinset) (insert b scope.new.ids.toFinset)
      ≤ (scope.pairsFrom a b).card :=
  Finset.card_le_card Finset.sdiff_subset

/-- Comparing solves the equation of the recursion. -/
theorem level_compareIds (scope : Scope) (reach : Reach) :
    scope.level reach (scope.compareIds reach) = scope.compareIds reach := by
  funext a b w
  have deeper : scope.level reach (scope.compareIds reach)
      = scope.unrolled reach (fun _ _ => pure .same) (scope.depth + 1) := by
    rw [unrolled, ← compareWithin_eq_unrolled, compareIds]
  rw [deeper]
  exact unrolled_run a b w (Nat.le_succ_of_le (Invariant.room_le_depth w a b))

theorem compareIds_run_fresh (fresh : (a, b) ∉ w.visited) : (scope.compareIds reach a b).run w
    = (scope.compareFresh (scope.compareIds reach) reach a b).run w := by
  rw [← level_run_fresh fresh, level_compareIds]

theorem compareIds_trace (fresh : (a, b) ∉ w.visited) :
    ∃ es w₁, scope.Looks a b es ((scope.compareIds reach a b).run w).1
      ∧ Trace (scope.compareIds reach) reach (w.enter (a, b) (scope.old.typeName a)) es w₁
      ∧ ((scope.compareIds reach a b).run w).2 = w₁.leave := by
  rw [compareIds_run_fresh fresh]
  exact compareFresh_run scope a b w

theorem unrolled_of_level_eq (solves : scope.level reach visit = visit) (depth : Nat) :
    scope.unrolled reach visit depth = visit := by
  induction depth with
  | zero =>
      funext a b w
      show (scope.unrolled reach visit 0 a b).run w = (visit a b).run w
      rw [unrolled_zero_run]
      split
      · rename_i noted
        rw [← solves, level_run_noted noted]
      · rfl
  | succ depth ih => rw [unrolled, ih, solves]

/-- Nothing else solves the equation. -/
theorem eq_compareIds_of_level_eq (solves : scope.level reach visit = visit) :
    visit = scope.compareIds reach := by
  funext a b w
  rw [← unrolled_of_level_eq solves scope.depth]
  exact unrolled_run a b w (Invariant.room_le_depth w a b)

theorem mem_pairsFrom {p : String × String} (met : scope.Reached (· = (a, b)) p) :
    p ∈ scope.pairsFrom a b := by
  rw [pairsFrom, Finset.mem_product]
  rcases met with rfl | ⟨old, new⟩
  · exact ⟨Finset.mem_insert_self _ _, Finset.mem_insert_self _ _⟩
  · exact ⟨Finset.mem_insert_of_mem (List.mem_toFinset.mpr old),
      Finset.mem_insert_of_mem (List.mem_toFinset.mpr new)⟩

end Scope

/-- Comparisons end, whatever the graphs and whatever was noted before.  Looks are never nested
deeper than there are pairs, so that it does not matter what becomes of those that are.  The
recursion with no bound has one solution, which is the comparison.  It looks at its own pairs
only, and at each of them once; so does any number of comparisons on one walk, and so does the
walk over two whole interfaces. -/
theorem comparisons_end (scope : Scope) :
    (∀ (reach : Reach) (beyond : Visit) (a b : String) (w : Walk) (extra : Nat),
      (scope.unrolled reach beyond ((scope.pairsFrom a b).card + extra) a b).run w
        = (scope.compareIds reach a b).run w)
      ∧ (∀ (reach : Reach) (visit : Visit),
        scope.level reach visit = visit ↔ visit = scope.compareIds reach)
      ∧ (∀ (reach : Reach) (a b : String) (w : Walk),
        w.LooksOnce (· ∈ scope.pairsFrom a b) ((scope.compareIds reach a b).run w).2)
      ∧ (∀ (tasks : List (Reach × Scope.Task)) (w : Walk),
        w.LooksOnce (fun _ => True) ((scope.carryOutAll tasks).run w).2)
      ∧ Walk.start.LooksOnce scope.Written (scope.walk.run .start).2 := by
  refine ⟨?_, ?_, ?_, scope.carryOutAll_looksOnce, scope.walk_looksOnce⟩
  · intro reach beyond a b w extra
    exact Scope.unrolled_run a b w (Nat.le_add_right_of_le (Scope.room_le_pairsFrom w a b))
  · intro reach visit
    refine ⟨Scope.eq_compareIds_of_level_eq, ?_⟩
    rintro rfl
    exact scope.level_compareIds reach
  · intro reach a b w
    exact (scope.compareIds_looksOnce reach a b w).mono fun _ => Scope.mem_pairsFrom

end AbiCompat
