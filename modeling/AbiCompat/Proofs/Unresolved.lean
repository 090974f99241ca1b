/-
# Ids that do not resolve

Where ids count, two ids of which one does not resolve are compared by their names.  The name that
is meant is the canonical one: the id up to the mark of a variant, with one spelling for the type
of a variable argument list.

## What is proved

The comparison reaches equality of canonical names by two rules that are tried one after the other,
and the second one reads the ids with their marks.  So

    ids agree  ↔  their canonical names are equal, and they are not spelled apart

where `SpelledApart` are the two spellings of a variable argument list of which one has a
mark.  Agreement is reflexive and symmetric, and a chain of two agreements ends in one unless its
ends are spelled apart.  The mark of a variant does not count, with the same exception; the two
spellings, one of them with a mark, are the counterexample.

All this holds of any texts as ids.  A mark is `#ODR:`; of several marks the first counts, and the
character that it begins with comes only once in it, which is what the lemmas on texts rest on.

## What is not

Where a type resolves in both versions its name does not count, and where ids do not count two of
which one does not resolve are taken to match.
-/
import AbiCompat.Proofs.Walk.Ending
import Mathlib.Data.List.Infix

namespace AbiCompat

/-! ## What stands before a mark

Before a mark there is no other one; all stands before the mark if there is none; and what stands
before it is not changed by a mark that follows. -/

namespace Text

variable {mark cs : List Char}

theorem before_isPrefix (mark cs : List Char) : before mark cs <+: cs := by
  induction cs with
  | nil => exact List.prefix_rfl
  | cons c cs ih =>
      rw [before]
      split
      · exact List.nil_prefix
      · exact List.prefix_cons_inj c |>.mpr ih

theorem before_before (mark cs : List Char) : before mark (before mark cs) = before mark cs := by
  induction cs with
  | nil => rfl
  | cons c cs ih =>
      rw [before]
      split
      · rfl
      · rename_i later
        have still : ¬ mark.isPrefixOf (c :: before mark cs) = true := by
          intro start
          have longer := (List.prefix_cons_inj c).mpr (before_isPrefix mark cs)
          exact later (List.isPrefixOf_iff_prefix.mpr
            ((List.isPrefixOf_iff_prefix.mp start).trans longer))
        rw [before, if_neg still, ih]

theorem before_eq_self_iff (some_mark : mark ≠ []) : before mark cs = cs ↔ ¬ mark <:+: cs := by
  induction cs with
  | nil => simpa [before] using some_mark
  | cons c cs ih =>
      rw [before, List.infix_cons_iff, ← List.isPrefixOf_iff_prefix]
      split
      · rename_i start
        simp [start]
      · rename_i later
        simp [later, ih]

theorem prefix_append_iff {c : Char} {rest as : List Char} (once : c ∉ rest) (some_as : as ≠ [])
    (bs : List Char) : c :: rest <+: as ++ (c :: rest ++ bs) ↔ c :: rest <+: as := by
  refine ⟨fun start => ?_, fun start => start.trans (List.prefix_append _ _)⟩
  rcases List.prefix_or_prefix_of_prefix start (List.prefix_append as _) with within | ⟨tail, parts⟩
  · exact within
  · cases tail with
    | nil => exact ⟨[], by rw [← parts]; simp⟩
    | cons t tail =>
        obtain ⟨a, as, rfl⟩ := List.exists_cons_of_ne_nil some_as
        rw [← parts, List.prefix_append_right_inj, parts] at start
        have head : t = c := by
          obtain ⟨after, split⟩ := start
          exact (List.cons.inj split).1
        rw [List.cons_append, List.cons.injEq, head] at parts
        exact absurd (parts.2 ▸ List.mem_append_right as List.mem_cons_self) once

theorem before_append {c : Char} {rest : List Char} (once : c ∉ rest) (as bs : List Char) :
    before (c :: rest) (as ++ (c :: rest ++ bs)) = before (c :: rest) as := by
  induction as with
  | nil => simp [before]
  | cons a as ih =>
      have same := prefix_append_iff once (List.cons_ne_nil a as) bs
      rw [← List.isPrefixOf_iff_prefix, ← List.isPrefixOf_iff_prefix] at same
      rw [List.cons_append] at same ⊢
      rw [before, before, ih]
      simp only [same]

end Text

/-! ## Canonical names -/

/-- The mark that sets a variant of a type apart. -/
def variantMark : List Char := ['#', 'O', 'D', 'R', ':']

/-- The id has the mark of a variant. -/
def IsVariant (id : String) : Prop := variantMark <:+: id.toList

instance (id : String) : Decidable (IsVariant id) :=
  inferInstanceAs (Decidable (variantMark <:+: id.toList))

/-- The name that an id is meant to be compared by: without its variant, and with one spelling for
the type of a variable argument list. -/
def canonicalId (id : String) : String :=
  if withoutVariant id ∈ vaListIds then "_ZTI9__va_list" else withoutVariant id

/-- The ids are the two spellings of the type of a variable argument list, and one of them has the
mark of a variant. -/
structure SpelledApart (a b : String) : Prop where
  left : withoutVariant a ∈ vaListIds
  right : withoutVariant b ∈ vaListIds
  apart : withoutVariant a ≠ withoutVariant b
  marked : IsVariant a ∨ IsVariant b

variable {a b c id : String}

theorem toList_withoutVariant (id : String) :
    (withoutVariant id).toList = Text.before variantMark id.toList :=
  String.toList_ofList

@[simp] theorem withoutVariant_idem (id : String) :
    withoutVariant (withoutVariant id) = withoutVariant id := by
  rw [← String.toList_inj, toList_withoutVariant, toList_withoutVariant, Text.before_before]

theorem withoutVariant_eq_self_iff : withoutVariant id = id ↔ ¬ IsVariant id := by
  rw [← String.toList_inj, toList_withoutVariant]
  exact Text.before_eq_self_iff (List.cons_ne_nil _ _)

theorem withoutVariant_append (id text : String) :
    withoutVariant (id ++ "#ODR:" ++ text) = withoutVariant id := by
  rw [← String.toList_inj, toList_withoutVariant, toList_withoutVariant, String.toList_append,
    String.toList_append, List.append_assoc]
  exact Text.before_append (by decide) _ _

theorem canonicalId_mem_iff : canonicalId id ∈ vaListIds ↔ withoutVariant id ∈ vaListIds := by
  unfold canonicalId
  split
  · rename_i spelling
    exact iff_of_true List.mem_cons_self spelling
  · rfl

theorem canonicalId_eq_iff : canonicalId a = canonicalId b ↔
    withoutVariant a = withoutVariant b
      ∨ (withoutVariant a ∈ vaListIds ∧ withoutVariant b ∈ vaListIds) := by
  constructor
  · intro same
    have both : withoutVariant a ∈ vaListIds ↔ withoutVariant b ∈ vaListIds := by
      rw [← canonicalId_mem_iff, same, canonicalId_mem_iff]
    by_cases left : withoutVariant a ∈ vaListIds
    · exact .inr ⟨left, both.mp left⟩
    · rw [canonicalId, canonicalId, if_neg left, if_neg (mt both.mpr left)] at same
      exact .inl same
  · rintro (same | ⟨left, right⟩)
    · rw [canonicalId, canonicalId, same]
    · rw [canonicalId, canonicalId, if_pos left, if_pos right]

namespace SpelledApart

theorem symm (h : SpelledApart a b) : SpelledApart b a :=
  ⟨h.right, h.left, h.apart.symm, h.marked.symm⟩

theorem canonicalId_eq (h : SpelledApart a b) : canonicalId a = canonicalId b :=
  canonicalId_eq_iff.mpr (.inr ⟨h.left, h.right⟩)

end SpelledApart

/-! ## Agreement -/

section Agreement

variable {policy : Policy} (counts : policy.opaqueDiffers = true)

include counts

theorem compareUnresolved_eq_same_iff : compareUnresolved policy a b = .same ↔
    withoutVariant a = withoutVariant b ∨ (a ∈ vaListIds ∧ b ∈ vaListIds) := by
  rw [compareUnresolved, counts]
  simp only [Bool.not_true, Bool.false_eq_true, ↓reduceIte, ite_eq_left_iff, reduceCtorEq,
    imp_false, not_not]

/-- Ids agree exactly if their canonical names are equal and no mark sets two spellings apart. -/
theorem same_iff_canonicalId_eq :
    compareUnresolved policy a b = .same ↔ canonicalId a = canonicalId b ∧ ¬ SpelledApart a b := by
  have unmarked : ∀ id ∈ vaListIds, withoutVariant id = id := by decide
  rw [compareUnresolved_eq_same_iff counts, canonicalId_eq_iff]
  constructor
  · rintro (same | ⟨left, right⟩)
    · exact ⟨.inl same, fun out => out.apart same⟩
    · have plain_left := unmarked a left
      have plain_right := unmarked b right
      refine ⟨.inr ⟨plain_left.symm ▸ left, plain_right.symm ▸ right⟩, ?_⟩
      rintro ⟨-, -, -, marked | marked⟩
      · exact withoutVariant_eq_self_iff.mp plain_left marked
      · exact withoutVariant_eq_self_iff.mp plain_right marked
  · rintro ⟨same | ⟨left, right⟩, together⟩
    · exact .inl same
    · by_cases same : withoutVariant a = withoutVariant b
      · exact .inl same
      · have plain : ¬ IsVariant a ∧ ¬ IsVariant b := by
          rw [← not_or]
          exact fun marked => together ⟨left, right, same, marked⟩
        rw [withoutVariant_eq_self_iff.mpr plain.1] at left
        rw [withoutVariant_eq_self_iff.mpr plain.2] at right
        exact .inr ⟨left, right⟩

/-- A chain of two agreements ends in one, unless a mark sets its ends apart. -/
theorem same_trans_iff (first : compareUnresolved policy a b = .same)
    (second : compareUnresolved policy b c = .same) :
    compareUnresolved policy a c = .same ↔ ¬ SpelledApart a c := by
  rw [same_iff_canonicalId_eq counts] at first second ⊢
  exact and_iff_right (first.1.trans second.1)

end Agreement

/-- The first comparison of two ids of which one does not resolve goes by their names. -/
theorem Scope.compareIds_missing {scope : Scope} {w : Walk} (reach : Reach)
    (missing : scope.old.type? a = none ∨ scope.new.type? b = none)
    (fresh : (a, b) ∉ w.visited) :
    ((scope.compareIds reach a b).run w).1 = compareUnresolved scope.policy a b := by
  obtain ⟨es, w₁, looks, -, -⟩ := @compareIds_trace scope reach a b w fresh
  generalize ((scope.compareIds reach a b).run w).1 = d at looks
  cases looks with
  | unresolved => rfl
  | ignored old new => simp [old, new] at missing
  | types resolves => simp [resolves.old, resolves.new] at missing

/-- Where ids count, two ids of which one does not resolve agree exactly if their canonical names
are equal, except for two spellings that a mark sets apart, which differ.  Agreement is reflexive
and symmetric, and a chain of agreements ends in one unless its ends are set apart.  The mark of a
variant does not count, except where it sets two spellings apart. -/
theorem unresolved_by_canonicalId {policy : Policy} (counts : policy.opaqueDiffers = true) :
    (∀ (scope : Scope) reach (w : Walk) a b, scope.policy = policy →
        (scope.old.type? a = none ∨ scope.new.type? b = none) → (a, b) ∉ w.visited →
        ((scope.compareIds reach a b).run w).1 = compareUnresolved policy a b)
      ∧ (∀ a b, ¬ SpelledApart a b →
        (compareUnresolved policy a b = .same ↔ canonicalId a = canonicalId b))
      ∧ (∀ a b, SpelledApart a b →
        canonicalId a = canonicalId b ∧ compareUnresolved policy a b = .unresolved)
      ∧ (∀ a, compareUnresolved policy a a = .same)
      ∧ (∀ a b, compareUnresolved policy a b = .same → compareUnresolved policy b a = .same)
      ∧ (∀ a b c, compareUnresolved policy a b = .same → compareUnresolved policy b c = .same →
        (compareUnresolved policy a c = .same ↔ ¬ SpelledApart a c))
      ∧ ∀ a b text, ¬ SpelledApart a b → ¬ SpelledApart (a ++ "#ODR:" ++ text) b →
        (compareUnresolved policy (a ++ "#ODR:" ++ text) b = .same ↔
          compareUnresolved policy a b = .same) := by
  refine ⟨?_, ?_, ?_, compareUnresolved_self policy, ?_, fun _ _ _ => same_trans_iff counts, ?_⟩
  · rintro scope reach w a b rfl missing fresh
    exact Scope.compareIds_missing reach missing fresh
  · intro a b together
    rw [same_iff_canonicalId_eq counts]
    exact and_iff_left together
  · intro a b apart
    have differ : compareUnresolved policy a b ≠ .same :=
      fun same => ((same_iff_canonicalId_eq counts).mp same).2 apart
    exact ⟨apart.canonicalId_eq, (compareUnresolved_cases policy a b).resolve_left differ⟩
  · intro a b same
    rw [same_iff_canonicalId_eq counts] at same ⊢
    exact ⟨same.1.symm, fun apart => same.2 apart.symm⟩
  · intro a b text together together'
    rw [same_iff_canonicalId_eq counts, same_iff_canonicalId_eq counts, canonicalId, canonicalId,
      withoutVariant_append]
    exact and_congr_right fun _ => iff_of_true together' together

/-- The policy by which ids count. -/
def idsCount : Policy := { Policy.plain with opaqueDiffers := true }

/-- Two variants of a handle agree, and so do the two spellings without a mark. -/
theorem handle_variants_agree : idsCount.opaqueDiffers = true
    ∧ compareUnresolved idsCount "_ZTI6Handle#ODR:a.cpp" "_ZTI6Handle#ODR:b.cpp" = .same
    ∧ compareUnresolved idsCount "_ZTI9__va_list" "_ZTISt9__va_list" = .same := by
  have counts : idsCount.opaqueDiffers = true := rfl
  obtain ⟨-, agree, -⟩ := unresolved_by_canonicalId counts
  refine ⟨counts, (agree _ _ ?_).mpr (by decide), (agree _ _ ?_).mpr (by decide)⟩
  · exact fun apart => absurd apart.left (by decide)
  · exact fun apart => absurd apart.marked (by decide)

/-- A mark sets the two spellings apart, although their canonical names are equal and both agree
with the spelling in between. -/
theorem marked_spelling_differs :
    canonicalId "_ZTI9__va_list#ODR:a.h" = canonicalId "_ZTISt9__va_list"
      ∧ compareUnresolved idsCount "_ZTI9__va_list#ODR:a.h" "_ZTISt9__va_list" = .unresolved
      ∧ compareUnresolved idsCount "_ZTI9__va_list#ODR:a.h" "_ZTI9__va_list" = .same
      ∧ compareUnresolved idsCount "_ZTI9__va_list" "_ZTISt9__va_list" = .same := by
  decide

end AbiCompat
