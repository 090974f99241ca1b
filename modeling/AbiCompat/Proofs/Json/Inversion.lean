/-
# What readers did that went through

`Takes` is gone through backwards here: a reader that took something off a text went through each
of its steps, and none of them made the text longer.

The inversions are named by the step that is at the front of a reader: `of_bind` splits it off, and
`sees_of_…` says what stands at the front of the text if the step went through.  `Sees` is a byte
after blanks, which is what the readers look at before they decide.

That readers do not make texts longer (`Shrinks`) is needed only for the bounds on depth.  It holds
of each reader by its steps.
-/
import AbiCompat.Json.Numeral
import AbiCompat.Json.Quotation
import AbiCompat.Proofs.Json.Spelling
import Mathlib.Data.List.TakeWhile

namespace AbiCompat

namespace Reader

variable {α β : Type} {bs mid rest : Bytes} {x : α} {y : β} {b : UInt8}

/-! ## Steps backwards -/

namespace Takes

theorem of_bind {r : Reader α} {next : α → Reader β} (h : Takes (r >>= next) bs y rest) :
    ∃ x mid, Takes r bs x mid ∧ Takes (next x) mid y rest := by
  unfold Takes at h
  change (r bs >>= fun p => next p.1 p.2) = _ at h
  cases first : r bs with
  | error f =>
      rw [first] at h
      cases h
  | ok p =>
      rw [first] at h
      exact ⟨p.1, p.2, first, h⟩

theorem of_pure {x' : α} (h : Takes (Pure.pure x) bs x' rest) : x = x' ∧ bs = rest := by
  cases h
  exact ⟨rfl, rfl⟩

theorem not_throw {f : Fault} : ¬ Takes (throw f : Reader α) bs x rest := nofun

/-- A reader takes one thing off a text. -/
theorem det {r : Reader α} {x' : α} {rest' : Bytes} (h : Takes r bs x rest)
    (h' : Takes r bs x' rest') : x = x' ∧ rest = rest' := by
  unfold Takes at h h'
  rw [h] at h'
  cases h'
  exact ⟨rfl, rfl⟩

end Takes

theorem not_takes_unexpected {o : Option UInt8} :
    ¬ Takes (unexpected o : Reader α) bs x rest := by
  cases o <;> exact Takes.not_throw

/-- The first byte after blanks, and what follows it. -/
def Sees (bs : Bytes) (b : UInt8) (rest : Bytes) : Prop := bs.dropWhile Byte.isBlank = b :: rest

theorem Sees.look (sees : Sees bs b rest) : Takes look? bs (some b) (b :: rest) := by
  unfold Takes look?
  rw [sees]
  rfl

theorem Sees.length_lt (sees : Sees bs b rest) : rest.length < bs.length := by
  have suffix := (List.dropWhile_suffix Byte.isBlank (l := bs)).length_le
  rw [sees, List.length_cons] at suffix
  exact suffix

theorem Sees.not_blank (sees : Sees bs b rest) : Byte.isBlank b = false := by
  have head := List.head?_dropWhile_not Byte.isBlank bs
  rw [sees] at head
  simpa using head

theorem sees_cons (mark : Byte.isBlank b = false) (rest : Bytes) : Sees (b :: rest) b rest :=
  List.dropWhile_cons_of_neg (by rw [mark]; exact Bool.false_ne_true)

theorem takes_look {o : Option UInt8} (h : Takes look? bs o mid) :
    mid = bs.dropWhile Byte.isBlank ∧ o = mid.head? := by
  cases h
  exact ⟨rfl, rfl⟩

theorem sees_of_look (h : Takes look? bs (some b) mid) :
    ∃ rest, mid = b :: rest ∧ Sees bs b rest := by
  obtain ⟨same, head⟩ := takes_look h
  cases mid with
  | nil => cases head
  | cons c rest =>
      cases head
      exact ⟨rest, rfl, same.symm⟩

theorem takes_advance {u : Unit} (h : Takes advance (b :: bs) u rest) : rest = bs := by
  cases h
  rfl

theorem sees_of_expect {u : Unit} (h : Takes (expect b) bs u rest) : Sees bs b rest := by
  obtain ⟨o, mid, looked, h⟩ := h.of_bind
  split at h
  · rename_i same
    cases same
    obtain ⟨t, rfl, sees⟩ := sees_of_look looked
    cases takes_advance h
    exact sees
  · exact absurd h not_takes_unexpected

theorem takes_of_word {ws : List UInt8} {u : Unit} (h : Takes (word ws) bs u rest) :
    bs = ws ++ rest := by
  induction ws generalizing bs with
  | nil => exact h.of_pure.2
  | cons w ws ih =>
      obtain ⟨c, mid, first, after⟩ := h.of_bind
      have taken : bs = c :: mid := by
        cases bs <;> cases first
        rfl
      split at after
      · rename_i same
        rw [taken, ih after, same]
        rfl
      · exact absurd after Takes.not_throw

/-- A reader that reads the whole of a text leaves nothing but blanks. -/
theorem takes_of_all {r : Reader α} (h : all r bs = .ok x) :
    ∃ rest, Takes r bs x rest ∧ Blank rest := by
  have whole : ∃ rest, Takes (do let x ← r; finish; return x : Reader α) bs x rest := by
    unfold all at h
    cases read : (do let x ← r; finish; return x : Reader α) bs with
    | error f =>
        rw [read] at h
        cases h
    | ok p =>
        rw [read] at h
        cases h
        exact ⟨p.2, read⟩
  obtain ⟨rest, h⟩ := whole
  obtain ⟨y, mid, takes, h⟩ := h.of_bind
  obtain ⟨u, after, finished, h⟩ := h.of_bind
  obtain ⟨rfl, rfl⟩ := h.of_pure
  refine ⟨mid, takes, ?_⟩
  obtain ⟨o, left, looked, h⟩ := finished.of_bind
  obtain ⟨rfl, rfl⟩ := takes_look looked
  cases none : mid.dropWhile Byte.isBlank with
  | nil => exact List.dropWhile_eq_nil_iff.mp none
  | cons b bs =>
      rw [none] at h
      exact absurd h Takes.not_throw

/-! ## Readers do not make texts longer -/

/-- What is left is no longer than what was there. -/
def Shrinks (r : Reader α) : Prop := ∀ ⦃bs x rest⦄, Takes r bs x rest → rest.length ≤ bs.length

namespace Shrinks

theorem pure (x : α) : Shrinks (Pure.pure x) := by
  intro bs x' rest h
  exact Nat.le_of_eq (congrArg List.length h.of_pure.2.symm)

theorem throw (f : Fault) : Shrinks (MonadExcept.throw f : Reader α) := by
  intro bs x rest h
  exact absurd h Takes.not_throw

theorem unexpected (o : Option UInt8) : Shrinks (Reader.unexpected o : Reader α) := by
  intro bs x rest h
  exact absurd h not_takes_unexpected

theorem bind {r : Reader α} {next : α → Reader β} (first : Shrinks r)
    (after : ∀ x, Shrinks (next x)) : Shrinks (r >>= next) := by
  intro bs y rest h
  obtain ⟨x, mid, h, h'⟩ := h.of_bind
  exact Nat.le_trans (after x h') (first h)

theorem ite {c : Prop} [Decidable c] {r s : Reader α} (yes : Shrinks r) (no : Shrinks s) :
    Shrinks (if c then r else s) := by
  split
  · exact yes
  · exact no

theorem get : Shrinks (MonadState.get : Reader Bytes) := by
  intro bs x rest h
  cases h
  exact Nat.le_refl _

theorem peek : Shrinks peek? := by
  intro bs x rest h
  cases h
  exact Nat.le_refl _

theorem advance : Shrinks advance := by
  intro bs x rest h
  cases h
  rw [List.length_tail]
  exact Nat.sub_le _ _

theorem next : Shrinks next := by
  intro bs x rest h
  cases bs with
  | nil => cases h
  | cons b bs =>
      cases h
      exact Nat.le_succ _

theorem run (p : UInt8 → Bool) : Shrinks (run p) := by
  intro bs x rest h
  cases h
  exact (List.dropWhile_suffix p).length_le

end Shrinks

/-! ### String literals -/

theorem shrinks_hex4 : Shrinks hex4 := by
  intro bs n rest h
  match bs, h with
  | a :: b :: c :: d :: bs, h =>
      unfold Takes hex4 at h
      dsimp only at h
      split at h
      · cases h
        simp only [List.length_cons]
        omega
      · cases h

theorem shrinks_codePoint : Shrinks codePoint := by
  refine shrinks_hex4.bind fun n => .ite (.throw _) (.ite ?_ (.pure _))
  have exactly (b : UInt8) : Shrinks (exactly b) :=
    Shrinks.peek.bind fun o => .ite .advance (.unexpected o)
  exact (exactly _).bind fun _ => (exactly _).bind fun _ => shrinks_hex4.bind fun m =>
    .ite (.pure _) (.throw _)

theorem shrinks_escape : Shrinks escape := by
  refine Shrinks.next.bind fun b => .ite shrinks_codePoint ?_
  cases shortEscape? b with
  | some c => exact .pure _
  | none => exact .throw _

theorem shrinks_quotedBytes : ∀ bound, Shrinks (quotedBytes bound)
  | [] => .throw _
  | _ :: bound => by
      have others := shrinks_quotedBytes bound
      exact Shrinks.next.bind fun b => .ite (.pure _) (.ite (.throw _) (.ite
        (shrinks_escape.bind fun _ => others.bind fun _ => .pure _)
        (others.bind fun _ => .pure _)))

theorem shrinks_quotation : Shrinks quotation := by
  refine Shrinks.get.bind fun bound => (shrinks_quotedBytes bound).bind fun bs => ?_
  cases Bytes.text? bs with
  | some s => exact .pure _
  | none => exact .throw _

/-! ### Numbers -/

theorem shrinks_digits : Shrinks digits :=
  (Shrinks.run _).bind fun _ => .ite (Shrinks.peek.bind .unexpected) (.pure _)

theorem shrinks_fraction : Shrinks fraction :=
  Shrinks.peek.bind fun _ => .ite
    (Shrinks.advance.bind fun _ => shrinks_digits.bind fun _ => .pure _) (.pure _)

theorem shrinks_exponentSign : Shrinks exponentSign := by
  refine Shrinks.peek.bind fun o => ?_
  cases o with
  | none => exact .pure _
  | some b =>
      exact .ite (Shrinks.advance.bind fun _ => .pure _)
        (.ite (Shrinks.advance.bind fun _ => .pure _) (.pure _))

theorem shrinks_exponent : Shrinks exponent :=
  Shrinks.peek.bind fun _ => .ite (Shrinks.advance.bind fun _ => shrinks_exponentSign.bind fun _ =>
    shrinks_digits.bind fun _ => .pure _) (.pure _)

theorem shrinks_numeral : Shrinks numeral := by
  have after (isNegative : Bool) : Shrinks (do
      let whole ← digits
      if whole.head? = some 0x30 ∧ whole.length ≠ 1 then throw .malformed
      let fraction ← fraction
      let exponent ← exponent
      return ⟨isNegative, whole, fraction.getD [], exponent,
        fraction.isNone && exponent.isNone⟩ : Reader Numeral) := by
    refine shrinks_digits.bind fun whole => .ite (.throw _) ?_
    exact shrinks_fraction.bind fun _ => shrinks_exponent.bind fun _ => .pure _
  refine Shrinks.peek.bind fun o => ?_
  dsimp only
  exact .ite (Shrinks.advance.bind fun _ => after _) (after _)

theorem numeral_of_number {n : JsonNumber} (h : Takes number bs n rest) :
    ∃ l, Takes numeral bs l rest ∧ l.value? = some n := by
  obtain ⟨l, mid, first, h⟩ := h.of_bind
  split at h
  · rename_i value
    obtain ⟨rfl, rfl⟩ := h.of_pure
    exact ⟨l, first, value⟩
  · exact absurd h Takes.not_throw

theorem number_length_le {n : JsonNumber} (h : Takes number bs n rest) :
    rest.length ≤ bs.length := by
  obtain ⟨l, first, -⟩ := numeral_of_number h
  exact shrinks_numeral first

end Reader

theorem Numeral.negative_of_value? {l : Numeral} {k : Int64} (h : l.value? = some (.negative k)) :
    k.toInt < 0 := by
  unfold value? at h
  dsimp only at h
  split at h
  · split at h
    · cases h
    · split at h
      · rename_i range
        cases h
        rw [show Nat.pow 2 63 = 2 ^ 63 from rfl] at range
        rw [Int64.toInt_ofInt_of_le (by omega) (by omega)]
        omega
      · cases h
  · obtain ⟨x, -, other⟩ := Option.map_eq_some_iff.mp h
    cases other

end AbiCompat
