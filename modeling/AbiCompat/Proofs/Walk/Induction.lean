/-
# Induction over walks

An invariant relates the state before a comparison, the answer and the state after it.  To hold of
every comparison it has to hold of one that meets a pair again, and of a fresh look if it holds of
what the look asks for.

    Scope.Invariant reach Q R     Q for comparisons, R for the events of a look; five clauses
    Invariant.compareIds          then Q holds of every comparison of two ids
    Invariant.of_trace            and R along all events

The depth of a walk bounds the looks that are under way, and each of them has noted a pair of its
own.  So a comparison runs out of depth only at a pair that it has noted before, and the invariants
hold with no word about the depth.  That is the work of this module: an invariant is given by
clauses about looks, and the bound on the depth is not seen from outside.

What every walk keeps, whatever else is to be shown, is at hand in all clauses: pairs that were
noted stay noted, findings stay, and events leave their marks (`Kept`).
-/
import Mathlib.Data.Finset.Prod
import AbiCompat.Proofs.Walk.Answers

namespace AbiCompat

/-! ## What a walk keeps -/

/-- Pairs that were noted stay noted, and findings stay. -/
structure Walk.Grows (w w' : Walk) : Prop where
  visited : w.visited ⊆ w'.visited
  findings : w.findings ⊆ w'.findings

namespace Walk.Grows

variable {w w₁ w' : Walk}

theorem refl (w : Walk) : w.Grows w := ⟨List.Subset.refl _, List.Subset.refl _⟩

theorem trans (h : w.Grows w₁) (h' : w₁.Grows w') : w.Grows w' :=
  ⟨List.Subset.trans h.visited h'.visited, List.Subset.trans h.findings h'.findings⟩

theorem report (w : Walk) (reach : Reach) (change : Change) : w.Grows (w.report reach change) :=
  ⟨List.Subset.refl _, List.subset_append_left _ _⟩

theorem enter (w : Walk) (pair : String × String) (name : String) :
    w.Grows (w.enter pair name) :=
  ⟨List.subset_cons_self _ _, List.Subset.refl _⟩

theorem leave (w : Walk) : w.Grows w.leave := ⟨List.Subset.refl _, List.Subset.refl _⟩

end Walk.Grows

/-- Events leave their marks: what was asked for is noted, and what was reported is found. -/
structure Kept (reach : Reach) (w : Walk) (es : List Event) (w' : Walk) : Prop where
  grows : w.Grows w'
  asked : ∀ {a b d}, .asked a b d ∈ es → (a, b) ∈ w'.visited
  reported : ∀ {c}, .reported c ∈ es → ∃ f ∈ w'.findings, f.reach = reach ∧ f.change = c

namespace Kept

variable {reach : Reach} {w w₁ w' : Walk} {es : List Event}

theorem done (w : Walk) : Kept reach w [] w :=
  ⟨.refl w, fun h => absurd h List.not_mem_nil, fun h => absurd h List.not_mem_nil⟩

theorem cons_asked {a b : String} {d : Difference} (grows : w.Grows w₁)
    (noted : (a, b) ∈ w₁.visited) (kept : Kept reach w₁ es w') :
    Kept reach w (.asked a b d :: es) w' where
  grows := grows.trans kept.grows
  asked h := by
    rcases List.mem_cons.mp h with h | h
    · cases h
      exact kept.grows.visited noted
    · exact kept.asked h
  reported h := by
    rcases List.mem_cons.mp h with h | h
    · cases h
    · exact kept.reported h

theorem cons_reported {c : Change} (kept : Kept reach (w.report reach c) es w') :
    Kept reach w (.reported c :: es) w' where
  grows := (Walk.Grows.report w reach c).trans kept.grows
  asked h := by
    rcases List.mem_cons.mp h with h | h
    · cases h
    · exact kept.asked h
  reported h := by
    rcases List.mem_cons.mp h with h | h
    · cases h
      exact ⟨_, kept.grows.findings (List.mem_append_right _ (List.mem_singleton_self _)), rfl, rfl⟩
    · exact kept.reported h

end Kept

/-! ## Invariants -/

/-- `Q` relates the states before and after a comparison and its answer, `R` the states
before and after some events.  The laws are those under which `Q` holds of every
comparison. -/
structure Scope.Invariant (scope : Scope) (reach : Reach)
    (Q : Walk → String → String → Difference → Walk → Prop)
    (R : Walk → List Event → Walk → Prop) : Prop where
  done : ∀ w, R w [] w
  asked : ∀ {w a b d w₁ es w'}, w.Grows w₁ → Kept reach w₁ es w' → Q w a b d w₁ → R w₁ es w' →
    R w (.asked a b d :: es) w'
  reported : ∀ {w c es w'}, Kept reach (w.report reach c) es w' → R (w.report reach c) es w' →
    R w (.reported c :: es) w'
  again : ∀ {w a b}, (a, b) ∈ w.visited → Q w a b .same w
  fresh : ∀ {w a b es d w'}, (a, b) ∉ w.visited → scope.Looks a b es d →
    Kept reach (w.enter (a, b) (scope.old.typeName a)) es w' →
    R (w.enter (a, b) (scope.old.typeName a)) es w' → Q w a b d w'.leave

/-! ## The depth suffices

There is room for as many looks within each other as there are pairs that are not noted.  A note
takes up room, and where there is none everything is noted. -/

/-- How many pairs of two sets of ids are not noted yet. -/
def Walk.room (A B : Finset String) (w : Walk) : Nat := (A ×ˢ B \ w.visited.toFinset).card

section Room

variable {A B : Finset String} {w w' : Walk} {a b : String}

theorem Walk.Grows.room_le (h : w.Grows w') : w'.room A B ≤ w.room A B := by
  refine Finset.card_le_card (Finset.sdiff_subset_sdiff (Finset.Subset.refl _) ?_)
  intro p hp
  exact List.mem_toFinset.mpr (h.visited (List.mem_toFinset.mp hp))

theorem Walk.room_enter_lt {name : String} (ha : a ∈ A) (hb : b ∈ B)
    (fresh : (a, b) ∉ w.visited) : (w.enter (a, b) name).room A B < w.room A B := by
  refine Finset.card_lt_card (Finset.ssubset_iff_of_subset ?_ |>.mpr ⟨(a, b), ?_, ?_⟩)
  · refine Finset.sdiff_subset_sdiff (Finset.Subset.refl _) ?_
    intro p hp
    exact List.mem_toFinset.mpr (List.mem_cons_of_mem _ (List.mem_toFinset.mp hp))
  · rw [Finset.mem_sdiff, Finset.mem_product, List.mem_toFinset]
    exact ⟨⟨ha, hb⟩, fresh⟩
  · rw [Finset.mem_sdiff, List.mem_toFinset]
    exact fun h => h.2 List.mem_cons_self

theorem Walk.mem_visited_of_room (ha : a ∈ A) (hb : b ∈ B) (h : w.room A B ≤ 0) :
    (a, b) ∈ w.visited := by
  have empty := Finset.card_eq_zero.mp (Nat.le_zero.mp h)
  have sub := Finset.sdiff_eq_empty_iff_subset.mp empty
  exact List.mem_toFinset.mp (sub (Finset.mem_product.mpr ⟨ha, hb⟩))

end Room

namespace Scope.Invariant

variable {scope : Scope} {reach : Reach} {Q : Walk → String → String → Difference → Walk → Prop}
  {R : Walk → List Event → Walk → Prop} {A B : Finset String}

/-- What is shown of one comparison. -/
structure Holds (Q : Walk → String → String → Difference → Walk → Prop) (visit : Visit)
    (w : Walk) (a b : String) : Prop where
  holds : Q w a b ((visit a b).run w).1 ((visit a b).run w).2
  grows : w.Grows ((visit a b).run w).2
  noted : (a, b) ∈ ((visit a b).run w).2.visited

/-- From comparisons to events.  `good` is what the states have to be for a comparison to be
understood, and `within` what the pairs have to be. -/
theorem along {visit : Visit} (inv : scope.Invariant reach Q R) {good : Walk → Prop}
    {within : String → String → Prop} (keeps : ∀ {w w'}, w.Grows w' → good w → good w')
    (each : ∀ {w a b}, within a b → good w → Holds Q visit w a b) {w w' : Walk}
    {es : List Event} (trace : Trace visit reach w es w')
    (pairs : ∀ {a b d}, .asked a b d ∈ es → within a b) (start : good w) :
    R w es w' ∧ Kept reach w es w' := by
  induction trace with
  | done w => exact ⟨inv.done w, .done w⟩
  | asked _ ih =>
      have first := each (pairs List.mem_cons_self) start
      obtain ⟨rest, kept⟩ := ih (fun h => pairs (List.mem_cons_of_mem _ h))
        (keeps first.grows start)
      exact ⟨inv.asked first.grows kept first.holds rest, .cons_asked first.grows first.noted kept⟩
  | reported _ ih =>
      obtain ⟨rest, kept⟩ := ih (fun h => pairs (List.mem_cons_of_mem _ h))
        (keeps (.report ..) start)
      exact ⟨inv.reported kept rest, .cons_reported kept⟩

theorem compareWithin_run_noted {n : Nat} {w : Walk} {a b : String} (noted : (a, b) ∈ w.visited) :
    (scope.compareWithin reach n a b).run w = (.same, w) := by
  cases n with
  | zero => rfl
  | succ n =>
      show (if (a, b) ∈ w.visited then pure Difference.same
        else scope.compareFresh (scope.compareWithin reach n) reach a b : Walking _).run w = _
      rw [if_pos noted]
      rfl

theorem compareWithin_run_fresh {n : Nat} {w : Walk} {a b : String}
    (fresh : (a, b) ∉ w.visited) : (scope.compareWithin reach (n + 1) a b).run w
      = (scope.compareFresh (scope.compareWithin reach n) reach a b).run w := by
  show (if (a, b) ∈ w.visited then pure Difference.same
    else scope.compareFresh (scope.compareWithin reach n) reach a b : Walking _).run w = _
  rw [if_neg fresh]

theorem compareWithin (inv : scope.Invariant reach Q R) (hA : ∀ id ∈ scope.old.ids, id ∈ A)
    (hB : ∀ id ∈ scope.new.ids, id ∈ B) (n : Nat) :
    ∀ {w a b}, a ∈ A ∧ b ∈ B → w.room A B ≤ n → Holds Q (scope.compareWithin reach n) w a b := by
  induction n with
  | zero =>
      -- with no room left the pair is noted, so running out of depth is meeting it again
      rintro w a b ⟨ha, hb⟩ room
      have noted := Walk.mem_visited_of_room ha hb room
      exact ⟨inv.again noted, .refl w, noted⟩
  | succ n ih =>
      rintro w a b ⟨ha, hb⟩ room
      by_cases noted : (a, b) ∈ w.visited
      · refine ⟨?_, ?_, ?_⟩ <;> rw [compareWithin_run_noted noted]
        · exact inv.again noted
        · exact .refl w
        · exact noted
      · obtain ⟨es, w₁, look, trace, left⟩ :=
          @compareFresh_run (scope.compareWithin reach n) reach scope a b w
        have within {c e d} (h : Event.asked c e d ∈ es) : c ∈ A ∧ e ∈ B := by
          obtain ⟨use, s, t, resolves, part⟩ := look.asked h
          obtain ⟨hc, he⟩ := resolves.mem_ids part
          exact ⟨hA _ hc, hB _ he⟩
        have small : (w.enter (a, b) (scope.old.typeName a)).room A B ≤ n :=
          Nat.le_of_lt_succ (Nat.lt_of_lt_of_le (Walk.room_enter_lt ha hb noted) room)
        obtain ⟨holds, kept⟩ := inv.along (fun h => h.room_le.trans) ih trace within small
        refine ⟨?_, ?_, ?_⟩ <;> rw [compareWithin_run_fresh noted]
        · rw [left]
          exact inv.fresh noted look kept holds
        · rw [left]
          exact ((Walk.Grows.enter ..).trans kept.grows).trans (.leave w₁)
        · rw [left]
          exact kept.grows.visited List.mem_cons_self

/-- The depth of a walk is no less than the room. -/
theorem room_le_depth (w : Walk) (a b : String) : w.room (insert a scope.old.ids.toFinset)
    (insert b scope.new.ids.toFinset) ≤ scope.depth := by
  have rows : (insert a scope.old.ids.toFinset).card ≤ scope.old.ids.length + 1 :=
    (Finset.card_insert_le _ _).trans (Nat.succ_le_succ (List.toFinset_card_le _))
  have columns : (insert b scope.new.ids.toFinset).card ≤ scope.new.ids.length + 1 :=
    (Finset.card_insert_le _ _).trans (Nat.succ_le_succ (List.toFinset_card_le _))
  refine (Finset.card_le_card Finset.sdiff_subset).trans ?_
  rw [Finset.card_product]
  exact Nat.mul_le_mul rows columns

/-- The invariant holds of every comparison. -/
theorem compareIds (inv : scope.Invariant reach Q R) (w : Walk) (a b : String) :
    Holds Q (scope.compareIds reach) w a b :=
  inv.compareWithin (fun _ h => Finset.mem_insert_of_mem (List.mem_toFinset.mpr h))
    (fun _ h => Finset.mem_insert_of_mem (List.mem_toFinset.mpr h)) _
    ⟨Finset.mem_insert_self _ _, Finset.mem_insert_self _ _⟩ (room_le_depth w a b)

theorem of_trace (inv : scope.Invariant reach Q R) {w w' : Walk} {es : List Event}
    (trace : Trace (scope.compareIds reach) reach w es w') :
    R w es w' ∧ Kept reach w es w' := by
  have each {w : Walk} {a b : String} (_ : True) (_ : True) :
      Holds Q (scope.compareIds reach) w a b := inv.compareIds w a b
  exact inv.along (fun _ _ => trivial) each trace (fun _ => trivial) trivial

end Scope.Invariant

theorem Scope.anything (scope : Scope) (reach : Reach) :
    scope.Invariant reach (fun _ _ _ _ _ => True) (fun _ _ _ => True) where
  done _ := .intro
  asked _ _ _ _ := .intro
  reported _ _ := .intro
  again _ := .intro
  fresh _ _ _ _ := .intro

theorem Trace.kept {scope : Scope} {reach : Reach} {w w' : Walk} {es : List Event}
    (trace : Trace (scope.compareIds reach) reach w es w') : Kept reach w es w' :=
  ((scope.anything reach).of_trace trace).2

end AbiCompat
