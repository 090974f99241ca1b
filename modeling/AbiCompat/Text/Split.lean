/-
# Splitting and trimming texts

Texts are lists of characters here.  A text is split at a character into the parts between its
occurrences, and two texts with the character between them have the parts of both
(`splitAt_append`).  Blanks at both ends are dropped, and what is left is the text if no blank was
there (`trim_padded`, `exists_trim`).

Blanks are the characters with the property White_Space, beyond those of ASCII.
-/

namespace AbiCompat.Text

/-- The parts between the occurrences of a character; there is one part more than there
are occurrences. -/
def splitAt (sep : Char) : List Char → List (List Char)
  | [] => [[]]
  | c :: cs =>
    if c = sep then [] :: splitAt sep cs
    else
      match splitAt sep cs with
      | [] => [[c]]
      | part :: parts => (c :: part) :: parts

theorem splitAt_ne_nil (sep : Char) (cs : List Char) : splitAt sep cs ≠ [] := by
  cases cs with
  | nil => simp [splitAt]
  | cons c cs =>
    simp only [splitAt]
    split
    · simp
    · split <;> simp

/-- Two texts joined by the character are split at it. -/
theorem splitAt_append (sep : Char) (as bs : List Char) :
    splitAt sep (as ++ sep :: bs) = splitAt sep as ++ splitAt sep bs := by
  induction as with
  | nil => simp [splitAt]
  | cons a as ih =>
    simp only [List.cons_append, splitAt, ih]
    split
    · rfl
    · cases h : splitAt sep as with
      | nil => exact absurd h (splitAt_ne_nil sep as)
      | cons part parts => rfl

theorem splitAt_of_notMem {sep : Char} {cs : List Char} (h : sep ∉ cs) :
    splitAt sep cs = [cs] := by
  induction cs with
  | nil => rfl
  | cons c cs ih =>
    obtain ⟨other, rest⟩ := not_or.mp (mt List.mem_cons.mpr h)
    rw [splitAt, if_neg (Ne.symm other), ih rest]

theorem notMem_of_mem_splitAt {sep : Char} {cs part : List Char} (h : part ∈ splitAt sep cs) :
    sep ∉ part := by
  induction cs generalizing part with
  | nil =>
    cases List.mem_singleton.mp h
    exact List.not_mem_nil
  | cons c cs ih =>
    rw [splitAt] at h
    split at h
    · rcases List.mem_cons.mp h with rfl | h
      · exact List.not_mem_nil
      · exact ih h
    · rename_i other
      cases parts : splitAt sep cs with
      | nil => exact absurd parts (splitAt_ne_nil sep cs)
      | cons first rest =>
        rw [parts] at h ih
        rcases List.mem_cons.mp h with rfl | h
        · rw [List.mem_cons, not_or]
          exact ⟨Ne.symm other, ih List.mem_cons_self⟩
        · exact ih (List.mem_cons_of_mem _ h)

/-- The characters with the property White_Space. -/
def isBlank (c : Char) : Bool :=
  let n := c.toNat
  (0x09 ≤ n && n ≤ 0x0d) || n == 0x20 || n == 0x85 || n == 0xa0 || n == 0x1680
    || (0x2000 ≤ n && n ≤ 0x200a) || n == 0x2028 || n == 0x2029 || n == 0x202f || n == 0x205f
    || n == 0x3000

def trimEnd (cs : List Char) : List Char := (cs.reverse.dropWhile isBlank).reverse

/-- Drops blanks at both ends. -/
def trim (cs : List Char) : List Char := trimEnd (cs.dropWhile isBlank)

/-- Only blanks. -/
def Blank (cs : List Char) : Prop := ∀ c ∈ cs, isBlank c = true

instance (cs : List Char) : Decidable (Blank cs) :=
  decidable_of_iff (cs.all isBlank = true) List.all_eq_true

theorem Blank.append {cs ds : List Char} (blank : Blank cs) (blank' : Blank ds) :
    Blank (cs ++ ds) := by
  intro c mem
  exact (List.mem_append.mp mem).elim (blank c) (blank' c)

theorem trimEnd_append {cs after : List Char} (blank : Blank after) :
    trimEnd (cs ++ after) = trimEnd cs := by
  rw [trimEnd, List.reverse_append, List.dropWhile_append_of_pos]
  · rfl
  · exact fun c mem => blank c (List.mem_reverse.mp mem)

/-- Blanks around a text do not count. -/
theorem trim_padded {before cs after : List Char} (blank : Blank before) (blank' : Blank after) :
    trim (before ++ cs ++ after) = trim cs := by
  rw [List.append_assoc, trim, List.dropWhile_append_of_pos blank, List.dropWhile_append]
  split
  · -- a text of blanks: nothing is left of it, with the blanks after it or without
    rename_i none
    have only : (after ++ []).dropWhile isBlank = [] := List.dropWhile_append_of_pos blank'
    rw [List.append_nil] at only
    rw [trim, List.isEmpty_iff.mp none, only]
  · exact trimEnd_append blank'

theorem exists_trim (cs : List Char) :
    ∃ before after, Blank before ∧ Blank after ∧ cs = before ++ trim cs ++ after := by
  have blank (xs : List Char) : Blank (xs.takeWhile isBlank) :=
    List.all_eq_true.mp List.all_takeWhile
  let rest := cs.dropWhile isBlank
  refine ⟨cs.takeWhile isBlank, (rest.reverse.takeWhile isBlank).reverse, blank cs, ?_, ?_⟩
  · exact fun c mem => blank _ c (List.mem_reverse.mp mem)
  · rw [List.append_assoc, trim, trimEnd, ← List.reverse_append, List.takeWhile_append_dropWhile,
      List.reverse_reverse, List.takeWhile_append_dropWhile]

theorem trim_trim (cs : List Char) : trim (trim cs) = trim cs := by
  obtain ⟨before, after, blank, blank', parts⟩ := exists_trim cs
  have padded : trim (before ++ trim cs ++ after) = trim (trim cs) := trim_padded blank blank'
  rw [← parts] at padded
  exact padded.symm

theorem mem_of_mem_trim {cs : List Char} {c : Char} (h : c ∈ trim cs) : c ∈ cs := by
  obtain ⟨before, after, -, -, parts⟩ := exists_trim cs
  rw [parts]
  exact List.mem_append_left _ (List.mem_append_right _ h)

end AbiCompat.Text
