/-
# What readers take off a text

A writer makes characters and a reader takes bytes, so that between the two stands the UTF-8 form
of what is written (`spell`).  `Takes` says of a reader what it takes off the front of one text; it
goes through the steps of a reader one by one, and never looks at faults.

The lemmas here go forwards: a reader that meets such a text goes through and leaves the
rest.  What a reader that went through must have met is in `Inversion`.
-/
import AbiCompat.Json.Reader

namespace AbiCompat

/-! ## Characters as bytes -/

/-- The UTF-8 form of characters. -/
def spell (cs : List Char) : Bytes := cs.flatMap String.utf8EncodeChar

@[simp] theorem spell_nil : spell [] = [] := rfl

theorem spell_cons (c : Char) (cs : List Char) :
    spell (c :: cs) = String.utf8EncodeChar c ++ spell cs := rfl

@[simp] theorem spell_append (cs ds : List Char) : spell (cs ++ ds) = spell cs ++ spell ds :=
  List.flatMap_append

theorem utf8EncodeChar_of_lt {c : Char} (ascii : c.toNat < 0x80) :
    String.utf8EncodeChar c = [UInt8.ofNat c.toNat] := by
  have small : c.val.toNat ≤ 0x7f := Nat.le_of_lt_succ ascii
  rw [String.utf8EncodeChar]
  exact if_pos small

/-! Marks are one byte each. -/

@[simp] theorem spell_comma (cs : List Char) : spell (',' :: cs) = Byte.comma :: spell cs := rfl

@[simp] theorem spell_quote (cs : List Char) : spell ('"' :: cs) = Byte.quote :: spell cs := rfl

@[simp] theorem spell_openBracket (cs : List Char) :
    spell ('[' :: cs) = Byte.openBracket :: spell cs := rfl

@[simp] theorem spell_closeBracket (cs : List Char) :
    spell (']' :: cs) = Byte.closeBracket :: spell cs := rfl

@[simp] theorem spell_openBrace (cs : List Char) :
    spell ('\x7b' :: cs) = Byte.openBrace :: spell cs := rfl

@[simp] theorem spell_closeBrace (cs : List Char) :
    spell ('\x7d' :: cs) = Byte.closeBrace :: spell cs := rfl

theorem le_of_mem_utf8EncodeChar {c : Char} (other : ¬ c.toNat < 0x80) {b : UInt8}
    (mem : b ∈ String.utf8EncodeChar c) : 0x80 ≤ b := by
  have large : ¬ c.val.toNat ≤ 0x7f := fun h => other (Nat.lt_succ_of_le h)
  rw [String.utf8EncodeChar] at mem
  simp only [if_neg large] at mem
  rw [UInt8.le_iff_toNat_le]
  split at mem
  · simp only [List.mem_cons, List.not_mem_nil, or_false] at mem
    rcases mem with rfl | rfl <;> simp [UInt8.toNat_ofNat'] <;> omega
  · split at mem
    · simp only [List.mem_cons, List.not_mem_nil, or_false] at mem
      rcases mem with rfl | rfl | rfl <;> simp [UInt8.toNat_ofNat'] <;> omega
    · simp only [List.mem_cons, List.not_mem_nil, or_false] at mem
      rcases mem with rfl | rfl | rfl | rfl <;> simp [UInt8.toNat_ofNat'] <;> omega

theorem ofText_ofList (cs : List Char) : Bytes.ofText (String.ofList cs) = spell cs := by
  rw [Bytes.ofText, String.toByteArray_ofList, List.utf8Encode, spell]
  simp

theorem spell_toList (s : String) : spell s.toList = Bytes.ofText s := by
  rw [← ofText_ofList, String.ofList_toList]

/-- A text is read back from the UTF-8 form of its characters. -/
theorem text?_spell (s : String) : Bytes.text? (spell s.toList) = some s := by
  rw [spell_toList, Bytes.text?_ofText]

/-! ## Steps of a reader -/

namespace Reader

/-- From the first text the reader takes a value, and leaves the second. -/
def Takes {α : Type} (r : Reader α) (bs : Bytes) (x : α) (rest : Bytes) : Prop :=
  r bs = .ok (x, rest)

namespace Takes

variable {α β : Type} {bs mid rest : Bytes} {x : α} {y : β}

theorem pure : Takes (Pure.pure x) bs x bs := rfl

theorem bind {r : Reader α} {next : α → Reader β} (first : Takes r bs x mid)
    (after : Takes (next x) mid y rest) : Takes (r >>= next) bs y rest := by
  unfold Takes at *
  show (r bs >>= fun p => next p.1 p.2) = _
  rw [first]
  exact after

theorem get : Takes MonadState.get bs bs bs := rfl

end Takes

/-- Bytes that are all blank. -/
def Blank (bs : Bytes) : Prop := ∀ b ∈ bs, Byte.isBlank b = true

theorem blank_nil : Blank [] := fun _ h => absurd h List.not_mem_nil

theorem blank_singleton {b : UInt8} (blank : Byte.isBlank b = true) : Blank [b] := by
  intro c mem
  cases List.mem_singleton.mp mem
  exact blank

section Steps

variable {pre rest : Bytes} {b : UInt8}

theorem dropWhile_blank (blank : Blank pre) (rest : Bytes) :
    (pre ++ rest).dropWhile Byte.isBlank = rest.dropWhile Byte.isBlank :=
  List.dropWhile_append_of_pos blank

theorem look_takes (blank : Blank pre) (mark : Byte.isBlank b = false) :
    Takes look? (pre ++ b :: rest) (some b) (b :: rest) := by
  unfold Takes look?
  rw [dropWhile_blank blank, List.dropWhile_cons_of_neg (by rw [mark]; exact Bool.false_ne_true)]
  rfl

theorem peek_takes (bs : Bytes) : Takes peek? bs bs.head? bs := rfl

theorem advance_takes : Takes advance (b :: rest) () rest := rfl

theorem next_takes : Takes next (b :: rest) b rest := rfl

theorem run_takes {p : UInt8 → Bool} {bs : Bytes} (all : ∀ b ∈ bs, p b = true)
    (stops : ∀ b ∈ rest.head?, p b = false) : Takes (run p) (bs ++ rest) bs rest := by
  have none : rest.takeWhile p = [] ∧ rest.dropWhile p = rest := by
    cases rest with
    | nil => exact ⟨rfl, rfl⟩
    | cons b rest =>
        have other := stops b rfl
        simp [other]
  unfold Takes run
  rw [List.takeWhile_append_of_pos all, List.dropWhile_append_of_pos all, none.1, none.2,
    List.append_nil]

theorem expect_takes (blank : Blank pre) (mark : Byte.isBlank b = false) :
    Takes (expect b) (pre ++ b :: rest) () rest := by
  refine (look_takes blank mark).bind ?_
  rw [if_pos rfl]
  exact advance_takes

theorem word_takes (bs : Bytes) (rest : Bytes) : Takes (word bs) (bs ++ rest) () rest := by
  induction bs with
  | nil => exact .pure
  | cons b bs ih =>
      refine next_takes.bind ?_
      rw [if_pos rfl]
      exact ih

theorem finish_takes (blank : Blank pre) : Takes finish pre () [] := by
  have ends : Takes look? pre none [] := by
    have all := dropWhile_blank blank []
    rw [List.append_nil, List.dropWhile_nil] at all
    unfold Takes look?
    rw [all]
    rfl
  exact ends.bind .pure

/-- A reader that takes all but blanks reads the whole. -/
theorem all_of_takes {α : Type} {r : Reader α} {bs : Bytes} {x : α} (takes : Takes r bs x rest)
    (blank : Blank rest) : all r bs = .ok x := by
  have whole : Takes (do let x ← r; finish; return x : Reader α) bs x [] :=
    takes.bind ((finish_takes blank).bind .pure)
  unfold all
  rw [whole]
  rfl

end Steps

end Reader

end AbiCompat
