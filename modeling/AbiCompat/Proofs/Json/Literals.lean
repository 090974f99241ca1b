/-
# Literals are read back

A string literal is read back as the string, whatever its characters, and the literal of an integer
as the integer, provided that the text does not go on with what would belong to it.

## Strings

A character is written as itself, by a short escape, or as four digits; what the reader takes off
is one character in each of the cases.  The induction is on the characters of the string, with the
rest of the literal in front of the closing quote (`Unquotes`).  Characters beyond the first 128
stand for themselves byte by byte, and none of their bytes is a quote or a backslash.

## Integers

The digits of a number are those that the writer makes (`digitsOf`), and `absorb` of the reader is
their value, as long as it fits.  A number may be read as a longer one if digits follow, or a
fraction, or an exponent; `Stops` excludes that, and it is the only place where what follows a
value matters.
-/
import AbiCompat.Json.Read
import AbiCompat.Json.Write
import AbiCompat.Proofs.Json.Spelling

namespace AbiCompat

namespace Reader

variable {rest : Bytes}

/-! ## Strings -/

/-- Bytes that stand for themselves in a string literal. -/
def Plain (b : UInt8) : Prop := ¬ b < 0x20 ∧ b ≠ Byte.quote ∧ b ≠ Byte.backslash

/-- With so many steps or more, the bytes up to the closing quote are decoded. -/
def Unquotes (steps : Nat) (bs xs rest : Bytes) : Prop :=
  ∀ bound : Bytes, steps ≤ bound.length → Takes (quotedBytes bound) bs xs rest

namespace Unquotes

variable {steps : Nat} {b : UInt8} {bs mid xs : Bytes}

theorem mono {steps' : Nat} (h : Unquotes steps bs xs rest) (le : steps ≤ steps') :
    Unquotes steps' bs xs rest :=
  fun bound enough => h bound (Nat.le_trans le enough)

theorem close (rest : Bytes) : Unquotes 1 (Byte.quote :: rest) [] rest := by
  rintro (_ | ⟨_, bound⟩) enough
  · exact absurd enough (Nat.not_succ_le_zero 0)
  · refine next_takes.bind ?_
    rw [if_pos rfl]
    exact .pure

theorem plain (h : Unquotes steps bs xs rest) (hb : Plain b) :
    Unquotes (steps + 1) (b :: bs) (b :: xs) rest := by
  obtain ⟨large, notQuote, notBackslash⟩ := hb
  rintro (_ | ⟨_, bound⟩) enough
  · exact absurd enough (Nat.not_succ_le_zero steps)
  · refine next_takes.bind ?_
    rw [if_neg notQuote, if_neg large, if_neg notBackslash]
    exact (h bound (Nat.le_of_succ_le_succ enough)).bind .pure

theorem plainAll (h : Unquotes steps bs xs rest) {ps : Bytes} (all : ∀ b ∈ ps, Plain b) :
    Unquotes (steps + ps.length) (ps ++ bs) (ps ++ xs) rest := by
  induction ps with
  | nil => exact h
  | cons b ps ih =>
      exact (ih fun b mem => all b (List.mem_cons_of_mem _ mem)).plain
        (all b List.mem_cons_self)

theorem escaped {first : Bytes} (h : Unquotes steps mid xs rest)
    (takes : Takes escape bs first mid) :
    Unquotes (steps + 1) (Byte.backslash :: bs) (first ++ xs) rest := by
  rintro (_ | ⟨_, bound⟩) enough
  · exact absurd enough (Nat.not_succ_le_zero steps)
  · refine next_takes.bind ?_
    rw [if_neg (by decide), if_neg (by decide), if_pos rfl]
    exact takes.bind ((h bound (Nat.le_of_succ_le_succ enough)).bind .pure)

end Unquotes

theorem escape_takes_short {b c : UInt8} (short : shortEscape? b = some c) (notU : b ≠ 0x75)
    (rest : Bytes) : Takes escape (b :: rest) [c] rest := by
  refine next_takes.bind ?_
  rw [if_neg notU]
  simp only [short]
  exact .pure

/-- The byte of a digit. -/
def digitByte (n : Nat) : UInt8 := UInt8.ofNat n.digitChar.toNat

theorem hexDigit?_digitByte : ∀ n < 16, Byte.hexDigit? (digitByte n) = some n := by decide

theorem utf8EncodeChar_digitChar {n : Nat} (small : n < 16) :
    String.utf8EncodeChar n.digitChar = [digitByte n] := by
  have ascii : ∀ n < 16, n.digitChar.toNat < 0x80 := by decide
  exact utf8EncodeChar_of_lt (ascii n small)

theorem spell_control {c : Char} (control : c.toNat < 0x20) :
    spell ['\\', 'u', '0', '0', Nat.digitChar (c.toNat / 16), Nat.digitChar (c.toNat % 16)]
      = [Byte.backslash, 0x75, 0x30, 0x30, digitByte (c.toNat / 16), digitByte (c.toNat % 16)] := by
  have first : c.toNat / 16 < 16 := by omega
  have second : c.toNat % 16 < 16 := by omega
  simp only [spell, List.flatMap_cons, List.flatMap_nil, utf8EncodeChar_digitChar first,
    utf8EncodeChar_digitChar second]
  rfl

theorem escape_takes_control {c : Char} (control : c.toNat < 0x20) (rest : Bytes) :
    Takes escape (0x75 :: 0x30 :: 0x30 :: digitByte (c.toNat / 16) :: digitByte (c.toNat % 16)
      :: rest) (String.utf8EncodeChar c) rest := by
  refine next_takes.bind ?_
  rw [if_pos rfl]
  have digits : Takes hex4 (0x30 :: 0x30 :: digitByte (c.toNat / 16)
      :: digitByte (c.toNat % 16) :: rest) c.toNat rest := by
    unfold Takes hex4
    have zero : Byte.hexDigit? 0x30 = some 0 := rfl
    simp only [zero, hexDigit?_digitByte (c.toNat / 16) (by omega),
      hexDigit?_digitByte (c.toNat % 16) (by omega)]
    have value : ((0 * 16 + 0) * 16 + c.toNat / 16) * 16 + c.toNat % 16 = c.toNat := by omega
    rw [value]
  refine digits.bind ?_
  rw [if_neg (by omega), if_neg (by omega), utf8, Char.ofNat_toNat]
  exact .pure

theorem plain_of_char {c : Char} (large : ¬ c.toNat < 0x20) (notQuote : c ≠ '"')
    (notBackslash : c ≠ '\\') {b : UInt8} (mem : b ∈ String.utf8EncodeChar c) : Plain b := by
  by_cases ascii : c.toNat < 0x80
  · rw [utf8EncodeChar_of_lt ascii] at mem
    cases List.mem_singleton.mp mem
    have value : (UInt8.ofNat c.toNat).toNat = c.toNat := by
      rw [UInt8.toNat_ofNat', Nat.mod_eq_of_lt (by omega)]
    -- an ASCII character is known by its byte
    have known {d : UInt8} (h : UInt8.ofNat c.toNat = d) : c = Char.ofNat d.toNat := by
      rw [← h, value, Char.ofNat_toNat]
    refine ⟨?_, fun h => notQuote (known h), fun h => notBackslash (known h)⟩
    rw [UInt8.lt_iff_toNat_lt, value]
    exact large
  · have high : 0x80 ≤ b.toNat := UInt8.le_iff_toNat_le.mp (le_of_mem_utf8EncodeChar ascii mem)
    refine ⟨?_, ?_, ?_⟩
    · rw [UInt8.lt_iff_toNat_lt]
      exact Nat.not_lt.mpr (Nat.le_trans (by decide) high)
    · rintro rfl
      exact absurd high (by decide)
    · rintro rfl
      exact absurd high (by decide)

theorem Unquotes.short {steps : Nat} {bs xs : Bytes} (h : Unquotes steps bs xs rest) {b c : UInt8}
    (short : shortEscape? b = some c) (notU : b ≠ 0x75) :
    Unquotes (steps + 2) (Byte.backslash :: b :: bs) (c :: xs) rest :=
  (h.escaped (escape_takes_short short notU bs)).mono (Nat.le_succ _)

/-- One character of a literal. -/
theorem Unquotes.char {steps : Nat} {bs xs : Bytes} (h : Unquotes steps bs xs rest) (c : Char) :
    Unquotes (steps + (spell (Json.escapedChar c)).length) (spell (Json.escapedChar c) ++ bs)
      (String.utf8EncodeChar c ++ xs) rest := by
  unfold Json.escapedChar
  split
  · exact h.short rfl (by decide)
  · exact h.short rfl (by decide)
  · exact h.short rfl (by decide)
  · exact h.short rfl (by decide)
  · exact h.short rfl (by decide)
  · exact h.short rfl (by decide)
  · exact h.short rfl (by decide)
  · rename_i notQuote notBackslash _ _ _ _ _
    split
    · rename_i control
      rw [spell_control control]
      refine (h.escaped (escape_takes_control control bs)).mono (Nat.add_le_add_left ?_ _)
      exact Nat.succ_le_succ (Nat.zero_le _)
    · rename_i large
      rw [spell_cons, spell_nil, List.append_nil]
      exact h.plainAll fun b mem => plain_of_char large notQuote notBackslash mem

theorem Unquotes.chars (cs : List Char) (rest : Bytes) :
    Unquotes ((spell (cs.flatMap Json.escapedChar)).length + 1)
      (spell (cs.flatMap Json.escapedChar) ++ Byte.quote :: rest) (spell cs) rest := by
  induction cs with
  | nil => exact .close rest
  | cons c cs ih =>
      rw [List.flatMap_cons, spell_append, List.append_assoc, spell_cons]
      refine (ih.char c).mono ?_
      rw [List.length_append]
      omega

/-- The rest of a literal after its opening quote is read back as the string. -/
theorem quotation_takes (s : String) (rest : Bytes) :
    Takes quotation (spell (s.toList.flatMap Json.escapedChar) ++ Byte.quote :: rest) s rest := by
  have enough : (spell (s.toList.flatMap Json.escapedChar)).length + 1
      ≤ (spell (s.toList.flatMap Json.escapedChar) ++ Byte.quote :: rest).length := by
    rw [List.length_append, List.length_cons]
    omega
  refine Takes.get.bind ((Unquotes.chars s.toList rest _ enough).bind ?_)
  simp only [text?_spell]
  exact .pure

theorem spell_quotedText (s : String) : spell (Json.quotedText s)
    = Byte.quote :: (spell (s.toList.flatMap Json.escapedChar) ++ [Byte.quote]) := by
  rw [Json.quotedText, spell_quote, spell_append, spell_quote, spell_nil]

theorem look_takes_quotedText {pre : Bytes} (blank : Blank pre) (s : String) (rest : Bytes) :
    Takes look? (pre ++ spell (Json.quotedText s) ++ rest) (some Byte.quote)
      (Byte.quote :: (spell (s.toList.flatMap Json.escapedChar) ++ Byte.quote :: rest)) := by
  rw [spell_quotedText, List.append_assoc, List.cons_append, List.append_assoc]
  exact look_takes blank rfl

theorem text_takes {pre : Bytes} (blank : Blank pre) (s : String) (rest : Bytes) :
    Takes text (pre ++ spell (Json.quotedText s) ++ rest) s rest := by
  refine (look_takes_quotedText blank s rest).bind ?_
  rw [if_pos rfl]
  exact advance_takes.bind (quotation_takes s rest)

theorem name_takes {pre : Bytes} (blank : Blank pre) (s : String) (rest : Bytes) :
    Takes name (pre ++ spell (Json.quotedText s) ++ rest) s rest := by
  refine (look_takes_quotedText blank s rest).bind ?_
  rw [if_pos rfl]
  exact advance_takes.bind (quotation_takes s rest)

theorem flag_takes {pre : Bytes} (blank : Blank pre) (b : Bool) (rest : Bytes) :
    Takes flag (pre ++ spell (Json.flagText b) ++ rest) b rest := by
  have yes : spell (Json.flagText true) = [0x74, 0x72, 0x75, 0x65] := rfl
  have no : spell (Json.flagText false) = [0x66, 0x61, 0x6c, 0x73, 0x65] := rfl
  rw [List.append_assoc]
  cases b with
  | true =>
      rw [yes]
      refine (look_takes blank rfl).bind ?_
      rw [if_pos rfl]
      exact advance_takes.bind ((word_takes [0x72, 0x75, 0x65] rest).bind .pure)
  | false =>
      rw [no]
      refine (look_takes blank rfl).bind ?_
      rw [if_neg (by decide), if_pos rfl]
      exact advance_takes.bind ((word_takes [0x61, 0x6c, 0x73, 0x65] rest).bind .pure)

end Reader

/-! ## Integers -/

namespace Numeral

/-- The digits of a number as bytes. -/
def digitsOf (n : Nat) : Bytes := spell (Nat.toDigits 10 n)

theorem digitsOf_of_lt {n : Nat} (small : n < 10) : digitsOf n = [Reader.digitByte n] := by
  rw [digitsOf, Nat.toDigits_of_lt_base small, spell_cons, spell_nil, List.append_nil,
    Reader.utf8EncodeChar_digitChar (Nat.lt_trans small (by decide))]

theorem digitsOf_of_le {n : Nat} (large : 10 ≤ n) :
    digitsOf n = digitsOf (n / 10) ++ [Reader.digitByte (n % 10)] := by
  have last : n % 10 < 10 := Nat.mod_lt n (by decide)
  rw [digitsOf, Nat.toDigits_of_base_le (by decide) large, spell_append, spell_cons, spell_nil,
    List.append_nil, Reader.utf8EncodeChar_digitChar (Nat.lt_trans last (by decide))]
  rfl

theorem digits_induction {P : Nat → Prop} (one : ∀ n, n < 10 → P n)
    (more : ∀ n, 10 ≤ n → P (n / 10) → P n) (n : Nat) : P n := by
  induction n using Nat.strongRecOn with
  | ind n ih =>
      by_cases small : n < 10
      · exact one n small
      · exact more n (Nat.not_lt.mp small) (ih _ (Nat.div_lt_self (by omega) (by decide)))

theorem isDigit_digitByte : ∀ n < 10, Byte.isDigit (Reader.digitByte n) = true := by decide

theorem digit_digitByte : ∀ n < 10, Byte.digit (Reader.digitByte n) = n := by decide

theorem digitByte_eq_zero : ∀ n < 10, Reader.digitByte n = 0x30 → n = 0 := by decide

theorem isDigit_of_mem_digitsOf (n : Nat) : ∀ b ∈ digitsOf n, Byte.isDigit b = true := by
  induction n using digits_induction with
  | one n small =>
      rw [digitsOf_of_lt small]
      intro b mem
      cases List.mem_singleton.mp mem
      exact isDigit_digitByte n small
  | more n large ih =>
      rw [digitsOf_of_le large]
      intro b mem
      rcases List.mem_append.mp mem with mem | mem
      · exact ih b mem
      · cases List.mem_singleton.mp mem
        exact isDigit_digitByte _ (Nat.mod_lt n (by decide))

theorem digitsOf_ne_nil (n : Nat) : digitsOf n ≠ [] := by
  by_cases small : n < 10
  · rw [digitsOf_of_lt small]
    exact List.cons_ne_nil _ _
  · rw [digitsOf_of_le (Nat.not_lt.mp small)]
    exact List.append_ne_nil_of_right_ne_nil _ (List.cons_ne_nil _ _)

theorem eq_zero_of_head? (n : Nat) (h : (digitsOf n).head? = some 0x30) : n = 0 := by
  induction n using digits_induction with
  | one n small =>
      rw [digitsOf_of_lt small] at h
      exact digitByte_eq_zero n small (Option.some.inj h)
  | more n large ih =>
      obtain ⟨d, ds, eq⟩ := List.exists_cons_of_ne_nil (digitsOf_ne_nil (n / 10))
      rw [digitsOf_of_le large, eq] at h
      rw [eq] at ih
      have none : n / 10 = 0 := ih h
      omega

theorem absorb_append {s t : Nat} {ds : Bytes} (es : Bytes) (h : absorb s ds = (t, [])) :
    absorb s (ds ++ es) = absorb t es := by
  induction ds generalizing s with
  | nil =>
      cases h
      rfl
  | cons d ds ih =>
      simp only [absorb, List.cons_append] at h ⊢
      split
      · rename_i fits
        rw [if_pos fits] at h
        exact ih h
      · rename_i overflows
        rw [if_neg overflows] at h
        cases h

/-- The digits of a number that fits are taken in. -/
theorem absorb_digitsOf (n : Nat) (fits : n < UInt64.size) : absorb 0 (digitsOf n) = (n, []) := by
  induction n using digits_induction with
  | one n small =>
      rw [digitsOf_of_lt small, absorb, digit_digitByte n small]
      simp only [Nat.zero_mul, Nat.zero_add, if_pos fits, absorb]
  | more n large ih =>
      have value : n / 10 * 10 + n % 10 = n := by omega
      rw [digitsOf_of_le large, absorb_append _ (ih (by omega)), absorb,
        digit_digitByte _ (Nat.mod_lt n (by decide)), value]
      simp only [if_pos fits, absorb]

end Numeral

namespace Reader

open Numeral (digitsOf)

/-- A text that does not go on with what would belong to a number. -/
def Stops (rest : Bytes) : Prop := ∀ b ∈ rest.head?, Byte.isDigit b = false ∧ b ≠ Byte.point
  ∧ b ≠ 0x65 ∧ b ≠ 0x45

section Integers

variable {pre rest : Bytes}

theorem digits_takes (n : Nat) (stops : Stops rest) :
    Takes digits (digitsOf n ++ rest) (digitsOf n) rest := by
  refine (run_takes (Numeral.isDigit_of_mem_digitsOf n) fun b mem => (stops b mem).1).bind ?_
  rw [if_neg (by simpa using Numeral.digitsOf_ne_nil n)]
  exact .pure

theorem fraction_takes (stops : Stops rest) : Takes fraction rest none rest := by
  have noPoint : rest.head? ≠ some Byte.point := fun h => (stops _ h).2.1 rfl
  refine (peek_takes rest).bind ?_
  rw [if_neg noPoint]
  exact .pure

theorem exponent_takes (stops : Stops rest) : Takes exponent rest none rest := by
  have noLetter : ¬ (rest.head? = some 0x65 ∨ rest.head? = some 0x45) := by
    rintro (h | h)
    · exact (stops _ h).2.2.1 rfl
    · exact (stops _ h).2.2.2 rfl
  refine (peek_takes rest).bind ?_
  rw [if_neg noLetter]
  exact .pure

theorem not_leading_zero (n : Nat) :
    ¬ ((digitsOf n).head? = some 0x30 ∧ (digitsOf n).length ≠ 1) := by
  rintro ⟨zero, long⟩
  rw [Numeral.eq_zero_of_head? n zero] at long
  exact long (by decide)

/-- The digits of a number and what does not belong to it. -/
theorem unsigned_takes (isNegative : Bool) (n : Nat) (stops : Stops rest) :
    Takes (do
      let whole ← digits
      if whole.head? = some 0x30 ∧ whole.length ≠ 1 then throw .malformed
      let fraction ← fraction
      let exponent ← exponent
      return ⟨isNegative, whole, fraction.getD [], exponent, fraction.isNone && exponent.isNone⟩)
      (digitsOf n ++ rest) (⟨isNegative, digitsOf n, [], none, true⟩ : Numeral) rest := by
  refine (digits_takes n stops).bind ?_
  rw [if_neg (not_leading_zero n)]
  exact (fraction_takes stops).bind ((exponent_takes stops).bind .pure)

theorem head?_digitsOf (n : Nat) (rest : Bytes) :
    ∃ b, (digitsOf n ++ rest).head? = some b ∧ Byte.isDigit b = true := by
  obtain ⟨b, bs, eq⟩ := List.exists_cons_of_ne_nil (Numeral.digitsOf_ne_nil n)
  refine ⟨b, by rw [eq]; rfl, Numeral.isDigit_of_mem_digitsOf n b ?_⟩
  rw [eq]
  exact List.mem_cons_self

theorem numeral_takes_natural (n : Nat) (stops : Stops rest) :
    Takes numeral (digitsOf n ++ rest) ⟨false, digitsOf n, [], none, true⟩ rest := by
  have noMinus : ¬ (digitsOf n ++ rest).head? = some Byte.minus := by
    obtain ⟨b, head, digit⟩ := head?_digitsOf n rest
    rw [head]
    rintro ⟨⟩
    cases digit
  refine (peek_takes _).bind ?_
  dsimp only
  rw [if_neg noMinus, decide_eq_false noMinus]
  exact unsigned_takes false n stops

theorem numeral_takes_negative (n : Nat) (stops : Stops rest) :
    Takes numeral (Byte.minus :: (digitsOf n ++ rest)) ⟨true, digitsOf n, [], none, true⟩ rest := by
  refine (peek_takes _).bind (advance_takes.bind ?_)
  exact unsigned_takes true n stops

theorem number_takes_natural (n : UInt64) (stops : Stops rest) :
    Takes number (spell (Json.numberText (.natural n)) ++ rest) (.natural n) rest := by
  refine (numeral_takes_natural n.toNat stops).bind ?_
  have value : Numeral.value? ⟨false, digitsOf n.toNat, [], none, true⟩ = some (.natural n) := by
    rw [Numeral.value?, Numeral.absorb_digitsOf n.toNat n.toNat_lt_size]
    simp
  rw [value]
  exact .pure

theorem number_takes_negative (n : Int64) (negative : n.toInt < 0) (stops : Stops rest) :
    Takes number (spell (Json.numberText (.negative n)) ++ rest) (.negative n) rest := by
  refine (numeral_takes_negative n.toInt.natAbs stops).bind ?_
  have bounds : -2 ^ 63 ≤ n.toInt := n.le_toInt
  have range : 1 ≤ n.toInt.natAbs ∧ n.toInt.natAbs ≤ Nat.pow 2 63 := by
    rw [show Nat.pow 2 63 = 2 ^ 63 from rfl]
    omega
  have fits : n.toInt.natAbs < UInt64.size := Nat.lt_of_le_of_lt range.2 (by decide)
  have value : Numeral.value? ⟨true, digitsOf n.toInt.natAbs, [], none, true⟩
      = some (.negative n) := by
    rw [Numeral.value?, Numeral.absorb_digitsOf n.toInt.natAbs fits]
    have magnitude : -(n.toInt.natAbs : Int) = n.toInt := by omega
    dsimp only
    rw [if_pos (by rfl), if_neg (by decide), if_pos range, magnitude, Int64.ofInt_toInt]
  rw [value]
  exact .pure

theorem not_blank_of_isDigit {b : UInt8} (digit : Byte.isDigit b = true) :
    Byte.isBlank b = false := by
  rw [← Bool.not_eq_true]
  intro blank
  simp only [Byte.isBlank, Bool.or_eq_true, beq_iff_eq] at blank
  rcases blank with ((rfl | rfl) | rfl) | rfl <;> exact absurd digit (by decide)

variable {α : Type} {fits? : Int → Option α} {wanted : String} {x : α}

theorem integer_takes_natural (blank : Blank pre) (n : UInt64) (stops : Stops rest)
    (fits : fits? n.toNat = some x) :
    Takes (integer wanted fits?) (pre ++ spell (Json.numberText (.natural n)) ++ rest) x rest := by
  obtain ⟨b, bs, eq⟩ := List.exists_cons_of_ne_nil (Numeral.digitsOf_ne_nil n.toNat)
  have digit : Byte.isDigit b = true :=
    Numeral.isDigit_of_mem_digitsOf n.toNat b (by rw [eq]; exact List.mem_cons_self)
  have takes := number_takes_natural n stops
  rw [List.append_assoc]
  rw [Json.numberText, ← digitsOf, eq] at takes ⊢
  refine (look_takes blank (not_blank_of_isDigit digit)).bind ?_
  dsimp only
  rw [if_pos (by rw [digit]; simp)]
  refine takes.bind ?_
  dsimp only
  rw [fits]
  exact .pure

theorem integer_takes_negative (blank : Blank pre) (n : Int64) (negative : n.toInt < 0)
    (stops : Stops rest) (fits : fits? n.toInt = some x) :
    Takes (integer wanted fits?) (pre ++ spell (Json.numberText (.negative n)) ++ rest) x rest := by
  rw [List.append_assoc]
  refine (look_takes blank (rfl : Byte.isBlank Byte.minus = false)).bind ?_
  dsimp only
  rw [if_pos (by decide)]
  refine (number_takes_negative n negative stops).bind ?_
  dsimp only
  rw [fits]
  exact .pure

/-! ## What the integer types hold -/

theorem fitsUInt64?_toNat (n : UInt64) : fitsUInt64? n.toNat = some n := by
  unfold fitsUInt64?
  rw [if_pos ⟨Int.natCast_nonneg _, Int.ofNat_lt.mpr n.toNat_lt_size⟩]
  simp

theorem fitsUInt32?_toNat (n : UInt32) : fitsUInt32? n.toUInt64.toNat = some n := by
  unfold fitsUInt32?
  rw [UInt32.toNat_toUInt64, if_pos ⟨Int.natCast_nonneg _, Int.ofNat_lt.mpr n.toNat_lt_size⟩]
  simp

theorem fitsInt64?_toInt (n : Int64) : fitsInt64? n.toInt = some n := by
  unfold fitsInt64?
  rw [if_pos ⟨n.minValue_le_toInt, n.toInt_le⟩]
  simp

theorem toNat_toUInt64 {n : Int64} (natural : 0 ≤ n) : (n.toUInt64.toNat : Int) = n.toInt := by
  have sign : 0 ≤ n.toInt := Int64.le_iff_toInt_le.mp natural
  rw [Int64.toNat_toUInt64_of_le natural, Int64.toNatClampNeg, Int.toNat_of_nonneg sign]

theorem uint64_takes (blank : Blank pre) (n : UInt64) (stops : Stops rest) :
    Takes (integer wanted fitsUInt64?) (pre ++ spell (Json.numberText (.natural n)) ++ rest) n
      rest :=
  integer_takes_natural blank n stops (fitsUInt64?_toNat n)

theorem uint32_takes (blank : Blank pre) (n : UInt32) (stops : Stops rest) :
    Takes (integer wanted fitsUInt32?)
      (pre ++ spell (Json.numberText (.natural n.toUInt64)) ++ rest) n rest :=
  integer_takes_natural blank n.toUInt64 stops (fitsUInt32?_toNat n)

theorem int64_takes (blank : Blank pre) (n : Int64) (stops : Stops rest) (level : Nat) :
    Takes (integer wanted fitsInt64?) (pre ++ spell (Json.prettyAt level (.ofInt64 n)) ++ rest) n
      rest := by
  rw [Json.ofInt64]
  split
  · rename_i natural
    rw [Json.prettyAt]
    refine integer_takes_natural blank n.toUInt64 stops ?_
    rw [toNat_toUInt64 natural]
    exact fitsInt64?_toInt n
  · rename_i negative
    rw [Json.prettyAt]
    exact integer_takes_negative blank n (Int64.lt_iff_toInt_lt.mp (Int64.not_le.mp negative))
      stops (fitsInt64?_toInt n)

end Integers

end Reader

end AbiCompat
