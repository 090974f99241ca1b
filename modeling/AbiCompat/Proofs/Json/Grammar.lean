/-
# What a text spells

`Spells` is the grammar of JSON texts: which value, or which rest of an array or an object, the
front of a text spells.  It is an inductive relation, with blanks in all the places where they may
stand, and neither readers nor writers occur in it but for those of literals.

## What is proved

    read, parse               what is spelled is read: the reader of values finds the value
    parse_prettyDocument      the pretty form of the value of a document spells that value

Between them stands whatever has to do with texts that a person wrote, since `Spells` is not about
one way of writing.

The reader of values has a bound on its depth, the length of the text.  That is enough, because
every level of nesting takes a byte.

## What is not

Whether the reader of values accepts nothing but what is spelled is not asked.  Of the readers of
documents it is shown, in `Accepted`.
-/
import AbiCompat.Json.Parse
import AbiCompat.Proofs.Json.Inversion
import AbiCompat.Proofs.Json.RoundTrip
import Mathlib.Data.List.DropRight

namespace AbiCompat

open Reader

/-- What a part of a text may stand for: a value, or the rest of an array or an object from some
place on, up to its end. -/
inductive Phrase where
  | value (j : Json)
  | items (isFirst : Bool) (js : List Json)
  | members (isFirst : Bool) (ms : List (String × Json))

/-- Where an item or a member begins: the first one at once, any other one after a comma. -/
def Starts : Bool → Bytes → Bytes → Prop
  | true, bs, start => start = bs
  | false, bs, start => Sees bs Byte.comma start

theorem Starts.length_le : ∀ {isFirst : Bool} {bs start : Bytes}, Starts isFirst bs start →
    start.length ≤ bs.length
  | true, _, _, same => Nat.le_of_eq (congrArg List.length same)
  | false, _, _, sees => Nat.le_of_lt sees.length_lt

/-- The front of a text spells something, and the rest of it is left. -/
inductive Spells : Bytes → Phrase → Bytes → Prop
  | null {bs rest} (sees : Sees bs 0x6e ([0x75, 0x6c, 0x6c] ++ rest)) :
      Spells bs (.value .null) rest
  | yes {bs rest} (sees : Sees bs 0x74 ([0x72, 0x75, 0x65] ++ rest)) :
      Spells bs (.value (.bool true)) rest
  | no {bs rest} (sees : Sees bs 0x66 ([0x61, 0x6c, 0x73, 0x65] ++ rest)) :
      Spells bs (.value (.bool false)) rest
  | number {bs rest b tail n} (sees : Sees bs b tail)
      (mark : (b = Byte.minus || Byte.isDigit b) = true)
      (literal : Takes number (b :: tail) n rest) : Spells bs (.value (.number n)) rest
  | string {bs rest tail s} (sees : Sees bs Byte.quote tail)
      (literal : Takes quotation tail s rest) : Spells bs (.value (.string s)) rest
  | array {bs rest tail js} (sees : Sees bs Byte.openBracket tail)
      (items : Spells tail (.items true js) rest) : Spells bs (.value (.array js)) rest
  | object {bs rest tail ms} (sees : Sees bs Byte.openBrace tail)
      (members : Spells tail (.members true ms) rest) : Spells bs (.value (.object ms)) rest
  | noItem {bs rest isFirst} (sees : Sees bs Byte.closeBracket rest) :
      Spells bs (.items isFirst []) rest
  | item {bs start mid rest isFirst j js} (starts : Starts isFirst bs start)
      (value : Spells start (.value j) mid) (others : Spells mid (.items false js) rest) :
      Spells bs (.items isFirst (j :: js)) rest
  | noMember {bs rest isFirst} (sees : Sees bs Byte.closeBrace rest) :
      Spells bs (.members isFirst []) rest
  | member {bs start tail named after mid rest isFirst name j ms}
      (starts : Starts isFirst bs start) (sees : Sees start Byte.quote tail)
      (literal : Takes quotation tail name named) (colon : Sees named Byte.colon after)
      (value : Spells after (.value j) mid) (others : Spells mid (.members false ms) rest) :
      Spells bs (.members isFirst ((name, j) :: ms)) rest

namespace Spells

variable {bs mid rest : Bytes} {j : Json}

theorem length_le {p : Phrase} (h : Spells bs p rest) : rest.length ≤ bs.length := by
  induction h with
  | null sees | yes sees | no sees =>
      have shorter := sees.length_lt
      rw [List.length_append] at shorter
      omega
  | number sees mark literal =>
      have shorter := sees.length_lt
      have others := number_length_le literal
      rw [List.length_cons] at others
      omega
  | string sees literal =>
      exact Nat.le_trans (shrinks_quotation literal) (Nat.le_of_lt sees.length_lt)
  | array sees _ ih | object sees _ ih => exact Nat.le_trans ih (Nat.le_of_lt sees.length_lt)
  | noItem sees | noMember sees => exact Nat.le_of_lt sees.length_lt
  | item starts _ _ ih ih' => exact Nat.le_trans ih' (Nat.le_trans ih starts.length_le)
  | member starts sees literal colon _ _ ih ih' =>
      have start := starts.length_le
      have name := shrinks_quotation literal
      have first := sees.length_lt
      have second := colon.length_lt
      omega

theorem of_blanks (h : Spells (bs.dropWhile Byte.isBlank) (.value j) rest) :
    Spells bs (.value j) rest := by
  have same {c : UInt8} {tail : Bytes} (sees : Sees (bs.dropWhile Byte.isBlank) c tail) :
      Sees bs c tail := by
    rw [Sees, List.dropWhile_idempotent] at sees
    exact sees
  cases h with
  | null sees => exact .null (same sees)
  | yes sees => exact .yes (same sees)
  | no sees => exact .no (same sees)
  | number sees mark literal => exact .number (same sees) mark literal
  | string sees literal => exact .string (same sees) literal
  | array sees items => exact .array (same sees) items
  | object sees members => exact .object (same sees) members

theorem opens (h : Spells bs (.value j) rest) :
    ∃ b tail, Sees bs b tail ∧ b ≠ Byte.closeBracket := by
  cases h with
  | null sees | yes sees | no sees | string sees | array sees | object sees =>
      exact ⟨_, _, sees, by decide⟩
  | number sees mark =>
      refine ⟨_, _, sees, ?_⟩
      rintro rfl
      cases mark

end Spells

/-! ## What is spelled is read -/

namespace Reader

/-- What follows an opening bracket. -/
def bracketRest (bound : Bytes) : Reader Json := do
  if (← look?) = some Byte.closeBracket then advance; return .array []
  else
    let x ← value bound
    return .array (x :: (← valuesAfter bound))

/-- What follows an opening brace. -/
def braceRest (bound : Bytes) : Reader Json := do
  if (← look?) = some Byte.closeBrace then advance; return .object []
  else
    let m ← namedValue bound
    return .object (m :: (← namedValuesAfter bound))

variable {bs tail rest : Bytes} {b : UInt8}

theorem Sees.exists_cons {bound : Bytes} (sees : Sees bs b tail)
    (enough : bs.length ≤ bound.length) :
    ∃ c bound', bound = c :: bound' ∧ tail.length ≤ bound'.length := by
  have shorter := sees.length_lt
  cases bound with
  | nil => exact absurd (Nat.lt_of_lt_of_le shorter enough) (Nat.not_lt_zero _)
  | cons c bound' =>
      rw [List.length_cons] at enough
      exact ⟨c, bound', rfl, by omega⟩

theorem Sees.expect (sees : Sees bs b rest) : Takes (expect b) bs () rest := by
  refine sees.look.bind ?_
  rw [if_pos rfl]
  exact advance_takes

theorem Takes.after_blanks {bound : Bytes} {j : Json} (h : Takes (value bound) bs j rest)
    (sees : Sees bs b tail) : Takes (value bound) (b :: tail) j rest := by
  cases bound with
  | nil => exact absurd h Takes.not_throw
  | cons c bound =>
      obtain ⟨o, mid, looked, h⟩ := h.of_bind
      obtain ⟨rfl, rfl⟩ := looked.det sees.look
      exact (sees_cons sees.not_blank tail).look.bind h

theorem namedValue_takes {bound named after mid : Bytes} {name : String} {j : Json}
    (sees : Sees bs Byte.quote tail) (literal : Takes quotation tail name named)
    (colon : Sees named Byte.colon after) (read : Takes (value bound) after j mid) :
    Takes (namedValue (b :: bound)) bs (name, j) mid :=
  sees.expect.bind (literal.bind (colon.expect.bind (read.bind .pure)))

end Reader

/-- A phrase is read off the front of a text by a reader with a bound. -/
def Phrase.ReadBy (bound bs rest : Bytes) : Phrase → Prop
  | value j => Takes (Reader.value bound) bs j rest
  | items true js => Takes (bracketRest bound) bs (.array js) rest
  | items false js => Takes (valuesAfter bound) bs js rest
  | members true ms => Takes (braceRest bound) bs (.object ms) rest
  | members false ms => Takes (namedValuesAfter bound) bs ms rest

namespace Spells

/-- What is spelled is read, if the bound is no shorter than the text. -/
theorem read {p : Phrase} {bs rest : Bytes} (h : Spells bs p rest) :
    ∀ {bound : Bytes}, bs.length ≤ bound.length → p.ReadBy bound bs rest := by
  induction h with
  | null sees | yes sees | no sees =>
      intro bound enough
      obtain ⟨c, bound, rfl, -⟩ := sees.exists_cons enough
      exact sees.look.bind (advance_takes.bind ((word_takes _ _).bind .pure))
  | number sees mark literal =>
      intro bound enough
      obtain ⟨c, bound, rfl, -⟩ := sees.exists_cons enough
      refine sees.look.bind ?_
      dsimp only
      rw [if_neg, if_neg, if_neg, if_pos mark]
      · exact literal.bind .pure
      all_goals
        rintro rfl
        cases mark
  | string sees literal =>
      intro bound enough
      obtain ⟨c, bound, rfl, -⟩ := sees.exists_cons enough
      exact sees.look.bind (advance_takes.bind (literal.bind .pure))
  | array sees _ ih | object sees _ ih =>
      intro bound enough
      obtain ⟨c, bound, rfl, inner⟩ := sees.exists_cons enough
      exact sees.look.bind (advance_takes.bind (ih inner))
  | @noItem _ _ isFirst sees | @noMember _ _ isFirst sees =>
      intro bound enough
      obtain ⟨c, bound, rfl, -⟩ := sees.exists_cons enough
      cases isFirst <;> exact sees.look.bind (advance_takes.bind .pure)
  | @item bs start mid rest isFirst j js starts value _ ih ih' =>
      intro bound enough
      cases isFirst with
      | true =>
          cases starts
          obtain ⟨b, tail, sees, notEnd⟩ := value.opens
          refine sees.look.bind ?_
          rw [if_neg (by simpa using notEnd)]
          refine ((ih enough).after_blanks sees).bind ?_
          exact (ih' (Nat.le_trans value.length_le enough)).bind .pure
      | false =>
          obtain ⟨c, bound, rfl, inner⟩ := Sees.exists_cons starts enough
          refine Takes.bind (Sees.look starts) (advance_takes.bind ((ih inner).bind ?_))
          exact (ih' (Nat.le_trans value.length_le inner)).bind .pure
  | @member bs start tail named after mid rest isFirst name j ms starts sees literal colon value
      _ ih ih' =>
      intro bound enough
      have quoted := shrinks_quotation literal
      have first := sees.length_lt
      have second := colon.length_lt
      have last := value.length_le
      have named {text bound : Bytes} (sees : Sees text Byte.quote tail)
          (enough : tail.length < bound.length) : Takes (namedValue bound) text (name, j) mid := by
        obtain ⟨c, bound, rfl⟩ := List.exists_cons_of_length_pos (Nat.zero_lt_of_lt enough)
        rw [List.length_cons] at enough
        exact namedValue_takes sees literal colon (ih (by omega))
      cases isFirst with
      | true =>
          cases starts
          refine sees.look.bind ?_
          rw [if_neg (by decide)]
          refine (named (sees_cons rfl tail) (by omega)).bind ?_
          exact (ih' (by omega)).bind .pure
      | false =>
          obtain ⟨c, bound, rfl, inner⟩ := Sees.exists_cons starts enough
          refine Takes.bind (Sees.look starts) (advance_takes.bind ?_)
          refine (named sees (by omega)).bind ?_
          exact (ih' (by omega)).bind .pure

/-- A text that spells a value up to blanks is the text of that value. -/
theorem parse {bs rest : Bytes} {j : Json} (h : Spells bs (.value j) rest) (blank : Blank rest) :
    Json.parse bs = .ok j :=
  all_of_takes (h.read (Nat.le_refl _)) blank

end Spells

/-! ## The pretty form -/

/-- The pretty form of the value spells the value, wherever it stands. -/
def Json.Spelled (j : Json) : Prop := ∀ (level : Nat) {pre rest : Bytes}, Blank pre → Stops rest →
  Spells (pre ++ spell (prettyAt level j) ++ rest) (.value j) rest

namespace Json

variable {pre rest : Bytes} {b : UInt8}

theorem sees_of_blank (blank : Blank pre) (mark : Byte.isBlank b = false) (rest : Bytes) :
    Sees (pre ++ b :: rest) b rest := by
  rw [Sees, dropWhile_blank blank]
  exact sees_cons mark rest

theorem spelled_null : Spelled null := by
  intro level pre rest blank _
  rw [List.append_assoc]
  exact .null (sees_of_blank blank rfl _)

theorem spelled_bool (b : Bool) : Spelled (bool b) := by
  intro level pre rest blank _
  rw [List.append_assoc]
  cases b with
  | true => exact .yes (sees_of_blank blank rfl _)
  | false => exact .no (sees_of_blank blank rfl _)

theorem sees_quotedText (blank : Blank pre) (s : String) (rest : Bytes) :
    Sees (pre ++ spell (quotedText s) ++ rest) Byte.quote
      (spell (s.toList.flatMap escapedChar) ++ Byte.quote :: rest) := by
  rw [spell_quotedText, List.append_assoc, List.cons_append, List.append_assoc]
  exact sees_of_blank blank rfl _

theorem spelled_string (s : String) : Spelled (string s) := by
  intro level pre rest blank _
  rw [prettyAt]
  exact .string (sees_quotedText blank s rest) (quotation_takes s rest)

theorem spelled_natural (n : UInt64) : Spelled (.ofUInt64 n) := by
  intro level pre rest blank stops
  obtain ⟨b, bs, eq⟩ := List.exists_cons_of_ne_nil (Numeral.digitsOf_ne_nil n.toNat)
  have digit : Byte.isDigit b = true :=
    Numeral.isDigit_of_mem_digitsOf n.toNat b (by rw [eq]; exact List.mem_cons_self)
  have literal := number_takes_natural n stops
  rw [List.append_assoc, ofUInt64, prettyAt]
  rw [numberText, ← Numeral.digitsOf, eq] at literal ⊢
  exact .number (sees_of_blank blank (not_blank_of_isDigit digit) _) (by rw [digit]; simp) literal

theorem spelled_ofInt64 (n : Int64) : Spelled (.ofInt64 n) := by
  rw [ofInt64]
  split
  · exact spelled_natural n.toUInt64
  · rename_i negative
    intro level pre rest blank stops
    rw [List.append_assoc, prettyAt]
    exact .number (sees_of_blank (b := Byte.minus) blank rfl _) rfl (number_takes_negative n
      (Int64.lt_iff_toInt_lt.mp (Int64.not_le.mp negative)) stops)

theorem spells_prettyItems {js : List Json} (each : ∀ j ∈ js, Spelled j) (level : Nat)
    (rest : Bytes) : Spells (spell (prettyItems level js) ++ rest) (.items false js) rest := by
  induction js with
  | nil =>
      rw [prettyItems, spell_append, List.append_assoc]
      exact .noItem (sees_of_blank (blank_newline level) rfl rest)
  | cons j js ih =>
      have first := each j List.mem_cons_self (level + 1) (blank_newline (level + 1))
        (stops_prettyItems level js rest)
      rw [prettyItems, spell_comma, spell_append, spell_append, List.cons_append,
        List.append_assoc]
      exact .item (sees_cons rfl _) first (ih fun j mem => each j (List.mem_cons_of_mem _ mem))

theorem spelled_array {js : List Json} (each : ∀ j ∈ js, Spelled j) : Spelled (array js) := by
  intro level pre rest blank _
  rw [List.append_assoc]
  cases js with
  | nil =>
      rw [prettyAt]
      exact .array (sees_of_blank blank rfl _) (.noItem (sees_cons rfl rest))
  | cons j js =>
      have first := each j List.mem_cons_self (level + 1) (blank_newline (level + 1))
        (stops_prettyItems level js rest)
      have others := spells_prettyItems (fun j mem => each j (List.mem_cons_of_mem _ mem)) level
        rest
      rw [prettyAt, spell_openBracket, spell_append, spell_append, List.cons_append,
        List.append_assoc]
      exact .array (sees_of_blank blank rfl _) (.item rfl first others)

theorem spells_membersFrom {ms : List (String × Json)} (each : ∀ m ∈ ms, Spelled m.2)
    (level : Nat) (isFirst : Bool) (rest : Bytes) :
    Spells (spell (membersFrom level isFirst ms) ++ rest) (.members isFirst ms) rest := by
  induction ms generalizing isFirst with
  | nil =>
      cases isFirst with
      | true => exact .noMember (sees_cons rfl rest)
      | false =>
          rw [membersFrom, prettyMembers, spell_append, List.append_assoc]
          exact .noMember (sees_of_blank (blank_newline level) rfl rest)
  | cons m ms ih =>
      obtain ⟨name, j⟩ := m
      let after := spell (prettyAt (level + 1) j) ++ (spell (prettyMembers level ms) ++ rest)
      have value := each (name, j) List.mem_cons_self (level + 1) (blank_singleton (b := 0x20) rfl)
        (stops_prettyMembers level ms rest)
      rw [List.append_assoc] at value
      have others := ih (fun m mem => each m (List.mem_cons_of_mem _ mem)) false
      have sees := sees_quotedText (blank_newline (level + 1)) name (Byte.colon :: 0x20 :: after)
      have literal := quotation_takes name (Byte.colon :: 0x20 :: after)
      have colon : Sees (Byte.colon :: 0x20 :: after) Byte.colon (0x20 :: after) := sees_cons rfl _
      cases isFirst with
      | true =>
          rw [spell_membersFrom_cons]
          exact .member rfl sees literal colon value others
      | false =>
          have comma : membersFrom level false ((name, j) :: ms)
              = ',' :: membersFrom level true ((name, j) :: ms) := rfl
          rw [comma, spell_comma, List.cons_append, spell_membersFrom_cons]
          exact .member (sees_cons rfl _) sees literal colon value others

theorem spelled_object {ms : List (String × Json)} (each : ∀ m ∈ ms, Spelled m.2) :
    Spelled (object ms) := by
  intro level pre rest blank _
  rw [List.append_assoc, prettyAt_object, spell_openBrace, List.cons_append]
  exact .object (sees_of_blank blank rfl _) (spells_membersFrom each level true rest)

/-- The pretty form of a value is the text of that value. -/
theorem Spelled.parse_prettyDocument {j : Json} (spelled : Spelled j) :
    parse (Bytes.ofText j.prettyDocument) = .ok j := by
  have whole := spelled 0 blank_nil (stops_cons (b := 0x0a) (by decide) [])
  have text : Bytes.ofText j.prettyDocument = [] ++ spell (prettyAt 0 j) ++ [0x0a] := by
    rw [prettyDocument, ofText_ofList, spell_append, List.nil_append]
    rfl
  rw [text]
  exact whole.parse (blank_singleton rfl)

end Json

mutual

/-- The value of a document is spelled by its pretty form. -/
theorem Schema.spelled : ∀ (s : Schema) (x : s.El), (s.toJson x).Spelled
  | .text, (x : String) => Json.spelled_string x
  | .flag, (x : Bool) => Json.spelled_bool x
  | .uint64, (x : UInt64) => Json.spelled_natural x
  | .uint32, (x : UInt32) => Json.spelled_natural x.toUInt64
  | .int64, (x : Int64) => Json.spelled_ofInt64 x
  | .list item, (xs : List item.El) => by
      refine Json.spelled_array fun j mem => ?_
      obtain ⟨x, -, rfl⟩ := List.mem_map.mp mem
      exact item.spelled x
  | .option _, (none : Option _) => Json.spelled_null
  | .option inner, (some x : Option inner.El) => inner.spelled x
  | .tag first rest, i => Json.spelled_string _
  | .object _ _ fields, row => Json.spelled_object (fields.spelled row)

theorem Fields.spelled : ∀ (fields : Fields) (row : fields.Row), ∀ m ∈ fields.toMembers row,
    m.2.Spelled
  | .done, _, _, mem => absurd mem List.not_mem_nil
  | .field presence name schema fields, (x, row), m, mem => by
      rw [Fields.toMembers] at mem
      split at mem
      · exact fields.spelled row m mem
      · rcases List.mem_cons.mp mem with rfl | mem
        · exact schema.spelled x
        · exact fields.spelled row m mem

end

end AbiCompat
