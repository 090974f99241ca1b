/-
# Documents are read back

Writing a document in its pretty form and reading it by its schema gives the document, for every
schema whose names do not clash and in which nothing but an option is written as `null`.

## What is proved

    Schema.decode_prettyDocument : s.isRegular = true → s.decode (pretty form of x) = .ok x

`isRegular` can be computed, so that it is settled for a given schema by evaluation.  Dumps and
reports use the theorem with schemas of their own, and need no other fact about texts.

## How

The induction is on schemas and rows (`Schema.readsBack`, `Fields.members_readBack`).  What is
shown of a value is that it is read back wherever it stands, at whatever depth and before whatever
text, as long as that text ends a number; nothing but a number needs to be ended.

Members that have their default are not written.  A row is therefore read from the members that are
there, and a state keeps for each field whether it was read; what is missing in the end is filled
in, and it is what was left out (`complete_written`).

## What is not

What else is accepted by the reader is in `Accepted` and `Normal`.
-/
import AbiCompat.Proofs.Json.Literals

namespace AbiCompat

open Reader Json

/-! ## Schemas that are read back -/

def Schema.isOption : Schema → Bool
  | .option _ => true
  | _ => false

mutual

/-- Whether names tell tags and fields apart, and `null` tells options apart. -/
def Schema.isRegular : Schema → Bool
  | .text | .flag | .uint64 | .uint32 | .int64 => true
  | .list item => item.isRegular
  | .option inner => !inner.isOption && inner.isRegular
  | .tag first rest => decide (first :: rest).Nodup
  | .object _ _ fields => fields.isRegular

def Fields.isRegular : Fields → Bool
  | .done => true
  | .field _ name schema rest => !rest.names.contains name && schema.isRegular && rest.isRegular

end

/-! ## The JSON value of a document, kind by kind -/

namespace Schema

theorem toJson_text (x : String) : Schema.text.toJson x = .string x := rfl

theorem toJson_flag (x : Bool) : Schema.flag.toJson x = .bool x := rfl

theorem toJson_uint64 (x : UInt64) : Schema.uint64.toJson x = .ofUInt64 x := rfl

theorem toJson_uint32 (x : UInt32) : Schema.uint32.toJson x = .ofUInt64 x.toUInt64 := rfl

theorem toJson_int64 (x : Int64) : Schema.int64.toJson x = .ofInt64 x := rfl

theorem toJson_list (item : Schema) (xs : List item.El) :
    (Schema.list item).toJson xs = .array (xs.map item.toJson) := rfl

theorem toJson_none (inner : Schema) :
    (Schema.option inner).toJson (none : Option inner.El) = .null := rfl

theorem toJson_some (inner : Schema) (x : inner.El) :
    (Schema.option inner).toJson (some x : Option inner.El) = inner.toJson x := rfl

theorem toJson_tag (first : String) (rest : List String) (i : Fin (rest.length + 1)) :
    (Schema.tag first rest).toJson i = .string (tagName first rest i) := rfl

theorem toJson_object (name : String) (isStrict : Bool) (fields : Fields)
    (row : fields.Row) :
    (Schema.object name isStrict fields).toJson row = .object (fields.toMembers row) := rfl

end Schema

/-! ## Where values begin and end -/

namespace Reader

variable {pre rest : Bytes} {level : Nat}

theorem blank_newline (level : Nat) : Blank (spell (newline level)) := by
  have spaces : ∀ n, spell (List.replicate n ' ') = List.replicate n 0x20 := by
    intro n
    induction n with
    | zero => rfl
    | succ n ih => rw [List.replicate_succ, spell_cons, ih]; rfl
  intro b mem
  rw [newline, spell_cons, spaces] at mem
  rcases List.mem_cons.mp mem with rfl | mem
  · rfl
  · rw [List.eq_of_mem_replicate mem]
    rfl

theorem stops_cons {b : UInt8}
    (h : Byte.isDigit b = false ∧ b ≠ Byte.point ∧ b ≠ 0x65 ∧ b ≠ 0x45) (rest : Bytes) :
    Stops (b :: rest) := by
  intro c mem
  cases mem
  exact h

theorem stops_prettyItems (level : Nat) (js : List Json) (rest : Bytes) :
    Stops (spell (prettyItems level js) ++ rest) := by
  cases js with
  | nil => rw [prettyItems]; exact stops_cons (by decide) _
  | cons j js => rw [prettyItems]; exact stops_cons (by decide) _

theorem stops_prettyMembers (level : Nat) (ms : List (String × Json)) (rest : Bytes) :
    Stops (spell (prettyMembers level ms) ++ rest) := by
  cases ms with
  | nil => rw [prettyMembers]; exact stops_cons (by decide) _
  | cons m ms => rw [prettyMembers]; exact stops_cons (by decide) _

end Reader

/-- How the text of a value begins: not with a blank, not with the end of a list, and with an
`n` only if the value may be `null`. -/
def Opens (isNullable : Bool) (bs : Bytes) : Prop :=
  ∃ b rest, bs = b :: rest ∧ Byte.isBlank b = false ∧ b ≠ Byte.closeBracket
    ∧ (isNullable = false → b ≠ 0x6e)

theorem opens_cons {isNullable : Bool} {b : UInt8}
    (h : Byte.isBlank b = false ∧ b ≠ Byte.closeBracket ∧ b ≠ 0x6e) (rest : Bytes) :
    Opens isNullable (b :: rest) :=
  ⟨b, rest, rfl, h.1, h.2.1, fun _ => h.2.2⟩

theorem Opens.weaken {isNullable : Bool} {bs : Bytes} (h : Opens isNullable bs) :
    Opens true bs := by
  obtain ⟨b, rest, eq, notBlank, notEnd, -⟩ := h
  exact ⟨b, rest, eq, notBlank, notEnd, fun h => by cases h⟩

theorem opens_digitsOf (isNullable : Bool) (n : Nat) :
    Opens isNullable (Numeral.digitsOf n) := by
  obtain ⟨b, bs, eq⟩ := List.exists_cons_of_ne_nil (Numeral.digitsOf_ne_nil n)
  have digit : Byte.isDigit b = true :=
    Numeral.isDigit_of_mem_digitsOf n b (by rw [eq]; exact List.mem_cons_self)
  rw [eq]
  refine opens_cons ⟨not_blank_of_isDigit digit, ?_, ?_⟩ bs
  · rintro rfl
    exact absurd digit (by decide)
  · rintro rfl
    exact absurd digit (by decide)

theorem opens_ofUInt64 (isNullable : Bool) (n : UInt64) (level : Nat) :
    Opens isNullable (spell (prettyAt level (.ofUInt64 n))) := by
  rw [Json.ofUInt64, prettyAt]
  exact opens_digitsOf isNullable n.toNat

theorem Schema.opens : ∀ (s : Schema), s.isRegular = true → ∀ (x : s.El) (level : Nat),
    Opens s.isOption (spell (prettyAt level (s.toJson x)))
  | .text, _, (x : String), level => by
      rw [toJson_text, prettyAt]
      exact opens_cons (by decide) _
  | .flag, _, (x : Bool), level => by
      rw [toJson_flag, prettyAt]
      cases x <;> exact opens_cons (by decide) _
  | .uint64, _, (x : UInt64), level => opens_ofUInt64 false x level
  | .uint32, _, (x : UInt32), level => opens_ofUInt64 false x.toUInt64 level
  | .int64, _, (x : Int64), level => by
      rw [toJson_int64, Json.ofInt64]
      split
      · exact opens_ofUInt64 false _ level
      · rw [prettyAt]
        exact opens_cons (by decide) _
  | .list item, _, (xs : List item.El), level => by
      rw [toJson_list]
      cases xs.map item.toJson <;> rw [prettyAt] <;> exact opens_cons (by decide) _
  | .option inner, _, (none : Option _), level => by
      rw [toJson_none, prettyAt]
      exact ⟨_, _, rfl, by decide, by decide, fun h => by cases h⟩
  | .option inner, regular, (some x : Option inner.El), level => by
      rw [toJson_some]
      exact (inner.opens (Bool.and_eq_true_iff.mp regular).2 x level).weaken
  | .tag first rest, _, (i : Fin (rest.length + 1)), level => by
      rw [toJson_tag, prettyAt]
      exact opens_cons (by decide) _
  | .object name isStrict fields, _, (row : fields.Row), level => by
      rw [toJson_object]
      cases fields.toMembers row <;> rw [prettyAt] <;> exact opens_cons (by decide) _

/-! ## Lists -/

namespace Reader

variable {α : Type} {item : Reader α} {write : α → Json} {level : Nat} {pre rest : Bytes}

/-- A value is read back, wherever it stands. -/
def ReadsBack (item : Reader α) (write : α → Json) (level : Nat) (x : α) : Prop :=
  ∀ {pre rest : Bytes}, Blank pre → Stops rest →
    Takes item (pre ++ spell (prettyAt level (write x)) ++ rest) x rest

theorem itemsAfter_takes : ∀ {xs : List α},
    (∀ x ∈ xs, ReadsBack item write (level + 1) x) → ∀ {bound : Bytes}, xs.length < bound.length →
      ∀ rest, Takes (itemsAfter item bound)
        (spell (prettyItems level (xs.map write)) ++ rest) xs rest
  | _, _, [], enough, _ => absurd enough (Nat.not_lt_zero _)
  | [], _, _ :: bound, _, rest => by
      rw [List.map_nil, prettyItems, spell_append, List.append_assoc, spell_closeBracket]
      refine (look_takes (blank_newline level) (by decide)).bind ?_
      rw [if_pos rfl]
      exact advance_takes.bind .pure
  | x :: xs, each, _ :: bound, enough, rest => by
      rw [List.map_cons, prettyItems, spell_comma, List.cons_append]
      refine (look_takes blank_nil (by decide)).bind ?_
      rw [if_neg (by decide), if_pos rfl]
      refine advance_takes.bind ?_
      have first := each x List.mem_cons_self (blank_newline (level + 1))
        (stops_prettyItems level (xs.map write) rest)
      have others := itemsAfter_takes (fun y mem => each y (List.mem_cons_of_mem _ mem))
        (Nat.lt_of_succ_lt_succ enough) rest
      rw [spell_append, spell_append, List.append_assoc]
      exact first.bind (others.bind .pure)

theorem length_lt_prettyItems (js : List Json) (level : Nat) (rest : Bytes) :
    js.length < (spell (prettyItems level js) ++ rest).length := by
  induction js with
  | nil =>
      rw [prettyItems, spell_append, spell_closeBracket]
      simp only [List.length_append, List.length_cons, List.length_nil]
      omega
  | cons j js ih =>
      rw [prettyItems, spell_comma, spell_append]
      simp only [List.length_append, List.length_cons] at ih ⊢
      omega

theorem list_takes {xs : List α} (each : ∀ x ∈ xs, ReadsBack item write (level + 1) x)
    (opens : ∀ x, Opens true (spell (prettyAt (level + 1) (write x)))) (blank : Blank pre)
    (rest : Bytes) :
    Takes (list item) (pre ++ spell (prettyAt level (.array (xs.map write))) ++ rest) xs rest := by
  rw [List.append_assoc]
  cases xs with
  | nil =>
      rw [List.map_nil, prettyAt, spell_openBracket, spell_closeBracket]
      refine (look_takes blank (by decide)).bind ?_
      dsimp only
      rw [if_pos rfl]
      refine advance_takes.bind ((look_takes blank_nil (by decide)).bind ?_)
      rw [if_pos rfl]
      exact advance_takes.bind .pure
  | cons x xs =>
      obtain ⟨b, bs, eq, notBlank, notEnd, -⟩ := opens x
      have first := each x List.mem_cons_self blank_nil
        (stops_prettyItems level (xs.map write) rest)
      have others := itemsAfter_takes (fun y mem => each y (List.mem_cons_of_mem _ mem))
        (Nat.lt_of_le_of_lt (Nat.le_of_eq (List.length_map write).symm)
          (length_lt_prettyItems (xs.map write) level rest)) rest
      rw [List.map_cons, prettyAt, spell_openBracket, List.cons_append]
      refine (look_takes blank (by decide)).bind ?_
      dsimp only
      rw [if_pos rfl]
      refine advance_takes.bind ?_
      -- a look for the end of the list drops the blanks before the first item
      rw [eq] at first
      rw [spell_append, spell_append, eq, List.append_assoc, List.append_assoc]
      refine (look_takes (blank_newline (level + 1)) notBlank).bind ?_
      rw [if_neg (by simpa using notEnd)]
      exact first.bind (Takes.get.bind (others.bind .pure))

/-! ## Options and tags -/

theorem option_takes_none (inner : Reader α) (blank : Blank pre) (rest : Bytes) :
    Takes (option inner) (pre ++ spell (prettyAt level .null) ++ rest) none rest := by
  have null : spell (prettyAt level .null) = [0x6e, 0x75, 0x6c, 0x6c] := rfl
  rw [null, List.append_assoc]
  refine (look_takes blank (by decide)).bind ?_
  rw [if_pos rfl]
  exact advance_takes.bind ((word_takes [0x75, 0x6c, 0x6c] rest).bind .pure)

theorem option_takes_some {x : α} (back : ReadsBack item write level x)
    (opens : Opens false (spell (prettyAt level (write x)))) (blank : Blank pre)
    (stops : Stops rest) :
    Takes (option item) (pre ++ spell (prettyAt level (write x)) ++ rest) (some x) rest := by
  obtain ⟨b, bs, eq, notBlank, -, notNull⟩ := opens
  have value := back blank_nil stops
  rw [List.append_assoc]
  rw [eq] at value ⊢
  refine (look_takes blank notBlank).bind ?_
  rw [if_neg (by simpa using notNull rfl)]
  exact value.bind .pure

theorem place?_tagName {first : String} {names : List String} (distinct : (first :: names).Nodup)
    (i : Fin (names.length + 1)) :
    place? (Schema.tagName first names i) (first :: names) = some i := by
  refine List.finIdxOf?_eq_some_iff.mpr ⟨rfl, ?_⟩
  intro j before same
  have places : j.val = i.val := (List.getElem_inj distinct).mp same
  exact absurd before (by rw [Fin.lt_def, places]; exact Nat.lt_irrefl _)

theorem tag_takes {first : String} {names : List String} (distinct : (first :: names).Nodup)
    (i : Fin (names.length + 1)) (blank : Blank pre) (rest : Bytes) :
    Takes (tag first names) (pre ++ spell (quotedText (Schema.tagName first names i)) ++ rest) i
      rest := by
  refine (look_takes_quotedText blank _ rest).bind ?_
  rw [if_pos rfl]
  refine advance_takes.bind ((quotation_takes _ rest).bind ?_)
  unfold known
  rw [place?_tagName distinct i]
  exact .pure

/-! ## Members -/

/-- The members of an object from some member on, and the closing brace. -/
def membersFrom (level : Nat) (isFirst : Bool) (ms : List (String × Json)) : List Char :=
  match isFirst, ms with
  | false, ms => prettyMembers level ms
  | true, [] => ['\x7d']
  | true, (name, j) :: ms =>
    newline (level + 1) ++ quotedText name ++ [':', ' '] ++ prettyAt (level + 1) j
      ++ prettyMembers level ms

theorem prettyAt_object (level : Nat) (ms : List (String × Json)) :
    prettyAt level (.object ms) = '\x7b' :: membersFrom level true ms := by
  cases ms with
  | nil => rw [prettyAt, membersFrom]
  | cons m ms => rw [prettyAt, membersFrom]

theorem memberName?_takes_none (level : Nat) (isFirst : Bool) (rest : Bytes) :
    Takes (memberName? isFirst) (spell (membersFrom level isFirst []) ++ rest) none
      (Byte.closeBrace :: rest) := by
  have ends : Takes look? (spell (membersFrom level isFirst []) ++ rest) (some Byte.closeBrace)
      (Byte.closeBrace :: rest) := by
    cases isFirst with
    | true => exact look_takes blank_nil (by decide)
    | false =>
        rw [membersFrom, prettyMembers, spell_append, List.append_assoc]
        exact look_takes (blank_newline level) (by decide)
  refine ends.bind ?_
  rw [if_pos rfl]
  exact .pure

theorem spell_membersFrom_cons (level : Nat) (name : String) (j : Json)
    (ms : List (String × Json)) (rest : Bytes) :
    spell (membersFrom level true ((name, j) :: ms)) ++ rest
      = spell (newline (level + 1)) ++ spell (quotedText name) ++ Byte.colon :: 0x20
        :: (spell (prettyAt (level + 1) j) ++ (spell (prettyMembers level ms) ++ rest)) := by
  have mark : spell [':', ' '] = [Byte.colon, 0x20] := rfl
  simp only [membersFrom, spell_append, mark, List.append_assoc]
  rfl

theorem memberName?_takes_some (level : Nat) (isFirst : Bool) (name : String) (j : Json)
    (ms : List (String × Json)) (rest : Bytes) :
    Takes (memberName? isFirst) (spell (membersFrom level isFirst ((name, j) :: ms)) ++ rest)
      (some name) (Byte.colon :: 0x20 :: (spell (prettyAt (level + 1) j)
        ++ (spell (prettyMembers level ms) ++ rest))) := by
  let after := Byte.colon :: 0x20 :: (spell (prettyAt (level + 1) j)
    ++ (spell (prettyMembers level ms) ++ rest))
  have split : spell (membersFrom level true ((name, j) :: ms)) ++ rest
      = spell (newline (level + 1)) ++ spell (quotedText name) ++ after :=
    spell_membersFrom_cons level name j ms rest
  cases isFirst with
  | true =>
      -- the look for the closing brace drops the blanks, so that the name stands after none
      have named := name_takes blank_nil name after
      rw [List.nil_append, spell_quotedText, List.cons_append, List.append_assoc] at named
      rw [split]
      refine (look_takes_quotedText (blank_newline (level + 1)) name after).bind ?_
      rw [if_neg (by decide), if_pos rfl]
      exact named.bind .pure
  | false =>
      have named := name_takes (blank_newline (level + 1)) name after
      have comma : membersFrom level false ((name, j) :: ms)
          = ',' :: membersFrom level true ((name, j) :: ms) := rfl
      rw [comma, spell_comma, List.cons_append, split]
      refine (look_takes blank_nil (by decide)).bind ?_
      rw [if_neg (by decide), if_neg (by decide), if_pos rfl]
      exact advance_takes.bind (named.bind .pure)

section Loop

variable {σ : Type} {enter : String → σ → Reader σ} {bound : Bytes} {isFirst : Bool}
  {s s' t : σ}

theorem members_takes_none (enough : 0 < bound.length) (s : σ) (rest : Bytes) :
    Takes (members enter bound isFirst s) (spell (membersFrom level isFirst []) ++ rest) s
      rest := by
  obtain ⟨_, bound, rfl⟩ := List.exists_cons_of_length_pos enough
  exact (memberName?_takes_none level isFirst rest).bind (advance_takes.bind .pure)

theorem members_takes_some {name : String} {j : Json} {ms : List (String × Json)}
    (enough : ms.length + 1 < bound.length)
    (first : Takes (enter name s) (Byte.colon :: 0x20 :: (spell (prettyAt (level + 1) j)
      ++ (spell (prettyMembers level ms) ++ rest))) s' (spell (prettyMembers level ms) ++ rest))
    (others : ∀ {bound : Bytes}, ms.length < bound.length →
      Takes (members enter bound false s') (spell (membersFrom level false ms) ++ rest) t rest) :
    Takes (members enter bound isFirst s)
      (spell (membersFrom level isFirst ((name, j) :: ms)) ++ rest) t rest := by
  obtain ⟨_, bound, rfl⟩ := List.exists_cons_of_length_pos (Nat.zero_lt_of_lt enough)
  refine (memberName?_takes_some level isFirst name j ms rest).bind (first.bind ?_)
  exact others (Nat.lt_of_succ_lt_succ enough)

end Loop

theorem length_lt_membersFrom (level : Nat) (isFirst : Bool) (ms : List (String × Json))
    (rest : Bytes) : ms.length < (spell (membersFrom level isFirst ms) ++ rest).length := by
  have others : ∀ ms, ms.length < (spell (prettyMembers level ms) ++ rest).length := by
    intro ms
    induction ms with
    | nil =>
        rw [prettyMembers, spell_append, spell_closeBrace]
        simp only [List.length_append, List.length_cons, List.length_nil]
        omega
    | cons m ms ih =>
        rw [prettyMembers, spell_comma, spell_append]
        simp only [List.length_append, List.length_cons] at ih ⊢
        omega
  cases isFirst with
  | false => exact others ms
  | true =>
      cases ms with
      | nil => exact Nat.succ_pos _
      | cons m ms =>
          have colon : 0 < (spell [':', ' ']).length := by decide
          have tail := others ms
          rw [membersFrom]
          simp only [spell_append, List.length_append, List.length_cons] at tail ⊢
          omega

end Reader

/-! ## Rows -/

theorem Schema.eq_initial : ∀ (s : Schema) (x : s.El), s.isInitial x = true → x = s.initial
  | .text, (_ : String), h => eq_of_beq (α := String) h
  | .flag, (_ : Bool), h => eq_of_beq (α := Bool) h
  | .uint64, (_ : UInt64), h => eq_of_beq (α := UInt64) h
  | .uint32, (_ : UInt32), h => eq_of_beq (α := UInt32) h
  | .int64, (_ : Int64), h => eq_of_beq (α := Int64) h
  | .list _, (_ : List _), h => List.isEmpty_iff.mp h
  | .option _, (_ : Option _), h => Option.isNone_iff_eq_none.mp h
  | .tag _ _, (_ : Fin _), h => Fin.ext (beq_iff_eq.mp h)
  | .object _ _ _, _, h => absurd h Bool.false_ne_true

namespace Fields

/-- The values of a row that are written. -/
def written : (fs : Fields) → fs.Row → fs.Partial
  | .done, _ => ()
  | .field presence _ schema rest, (x, row) =>
    (if presence = .elided ∧ schema.isInitial x then none else some x, rest.written row)

theorem complete_written : ∀ (fs : Fields) (row : fs.Row), fs.complete (fs.written row) = .ok row
  | .done, _ => rfl
  | .field presence name schema rest, (x, row) => by
      have others := complete_written rest row
      by_cases left : presence = .elided ∧ schema.isInitial x
      · rw [written, if_pos left, schema.eq_initial x left.2]
        show (do
          let value ← if presence = .required then .error (.mismatch (.missingMember name))
            else .ok schema.initial
          let row ← rest.complete (rest.written row)
          return (value, row)) = Except.ok (schema.initial, row)
        rw [others, if_neg (by rw [left.1]; decide)]
        rfl
      · rw [written, if_neg left]
        show (do
          let row ← rest.complete (rest.written row)
          return (x, row)) = Except.ok (x, row)
        rw [others]
        rfl

end Fields

/-! ## Documents -/

open Reader

section Members

variable {isStrict : Bool} {all : List String} {presence : Presence} {name other : String}
  {schema : Schema} {fields : Fields} {bs rest : Bytes}

theorem Fields.readMember_field (x : Option schema.El) (p : fields.Partial) :
    (Fields.field presence name schema fields).readMember isStrict all other (x, p)
      = (if other = name then
          if x.isSome then throw (.mismatch (.repeatedMember other))
          else do
            expect Byte.colon
            let value ← schema.read
            return (some value, p)
        else do
          let p ← fields.readMember isStrict all other p
          return (x, p) : Reader (Option schema.El × fields.Partial)) := rfl

/-- A field that was not read yet takes the value after its name. -/
theorem Fields.readMember_takes_own {x : schema.El}
    (value : Takes schema.read (0x20 :: bs) x rest) (p : fields.Partial) :
    Takes ((Fields.field presence name schema fields).readMember isStrict all name (none, p))
      (Byte.colon :: 0x20 :: bs) (some x, p) rest := by
  rw [Fields.readMember_field, if_pos rfl]
  exact (expect_takes blank_nil rfl).bind (value.bind .pure)

theorem Fields.readMember_takes_other {p q : fields.Partial} (differs : other ≠ name)
    (takes : Takes (fields.readMember isStrict all other p) bs q rest) (x : Option schema.El) :
    Takes ((Fields.field presence name schema fields).readMember isStrict all other (x, p)) bs
      (x, q) rest := by
  rw [Fields.readMember_field, if_neg differs]
  exact takes.bind .pure

/-- How members are entered into a state, of which the fields are a part that a lift makes the
whole of: what one of their members does to the part, it does to the whole. -/
def Fields.Enters (fields : Fields) (isStrict : Bool) (all : List String) {σ : Type}
    (enter : String → σ → Reader σ) (lift : fields.Partial → σ) : Prop :=
  ∀ name ∈ fields.names, ∀ p bs q rest,
    Takes (fields.readMember isStrict all name p) bs q rest →
      Takes (enter name (lift p)) bs (lift q) rest

theorem Fields.Enters.others {σ : Type} {enter : String → σ → Reader σ}
    {lift : (Fields.field presence name schema fields).Partial → σ}
    (enters : (Fields.field presence name schema fields).Enters isStrict all enter lift)
    (fresh : name ∉ fields.names) (x : Option schema.El) :
    fields.Enters isStrict all enter fun p => lift (x, p) := by
  intro other mem p bs q rest takes
  have differs : other ≠ name := fun same => fresh (same ▸ mem)
  exact enters other (List.mem_cons_of_mem _ mem) (x, p) bs (x, q) rest
    (Fields.readMember_takes_other differs takes x)

end Members

theorem Schema.read_object (name : String) (isStrict : Bool) (fields : Fields) :
    (Schema.object name isStrict fields).read = (do
      match ← look? with
      | none => throw .truncated
      | some b =>
        if b = Byte.openBracket then
          advance
          let row ← fields.readItems name fields.size true 0
          expect Byte.closeBracket
          return row
        else if b = Byte.openBrace then
          advance
          let p ← members (fields.readMember isStrict fields.names) (← get) true fields.nothing
          match fields.complete p with
          | .ok row => return row
          | .error fault => throw fault
        else wrongKind s!"struct {name}" : Reader fields.Row) := rfl

mutual

/-- A document is read back wherever it stands.  The induction is on the schema; what follows a
value has to end a number, since nothing else does. -/
theorem Schema.readsBack : ∀ (s : Schema), s.isRegular = true → ∀ (level : Nat) (x : s.El),
    ReadsBack s.read s.toJson level x
  | .text, _, level, (x : String), pre, rest, blank, _ => by
      rw [Schema.toJson_text, prettyAt]
      exact text_takes blank x rest
  | .flag, _, level, (x : Bool), pre, rest, blank, _ => by
      rw [Schema.toJson_flag, prettyAt]
      exact flag_takes blank x rest
  | .uint64, _, level, (x : UInt64), pre, rest, blank, stops => by
      rw [Schema.toJson_uint64, Json.ofUInt64, prettyAt]
      exact uint64_takes blank x stops
  | .uint32, _, level, (x : UInt32), pre, rest, blank, stops => by
      rw [Schema.toJson_uint32, Json.ofUInt64, prettyAt]
      exact uint32_takes blank x stops
  | .int64, _, level, (x : Int64), pre, rest, blank, stops => by
      rw [Schema.toJson_int64]
      exact int64_takes blank x stops level
  | .list item, regular, level, (xs : List item.El), pre, rest, blank, _ => by
      rw [Schema.toJson_list]
      exact list_takes (fun x _ => item.readsBack regular (level + 1) x)
        (fun x => (item.opens regular x (level + 1)).weaken) blank rest
  | .option inner, _, level, (none : Option inner.El), pre, rest, blank, _ => by
      rw [Schema.toJson_none]
      exact option_takes_none inner.read blank rest
  | .option inner, regular, level, (some x : Option inner.El), pre, rest, blank, stops => by
      obtain ⟨single, regular⟩ := Bool.and_eq_true_iff.mp regular
      have opens := inner.opens regular x level
      rw [(Bool.not_eq_eq_eq_not.mp single : inner.isOption = false)] at opens
      rw [Schema.toJson_some]
      exact option_takes_some (inner.readsBack regular level x) opens blank stops
  | .tag first names, distinct, level, (i : Fin (names.length + 1)), pre, rest, blank, _ => by
      rw [Schema.toJson_tag, prettyAt]
      exact tag_takes (of_decide_eq_true distinct) i blank rest
  | .object name isStrict fields, regular, level, (row : fields.Row), pre, rest, blank, _ => by
      rw [Schema.toJson_object, prettyAt_object, Schema.read_object, spell_openBrace,
        List.append_assoc]
      refine (look_takes blank rfl).bind ?_
      dsimp only
      rw [if_neg (by decide), if_pos rfl]
      refine advance_takes.bind (Takes.get.bind ?_)
      have whole : fields.Enters isStrict fields.names (fields.readMember isStrict fields.names)
          id := fun _ _ _ _ _ _ h => h
      refine (fields.members_readBack regular level row whole true rest
        (length_lt_membersFrom level true _ rest)).bind ?_
      rw [id, fields.complete_written row]
      exact .pure

/-- The members of a row are read back into the state that they are a part of. -/
theorem Fields.members_readBack : ∀ (fields : Fields), fields.isRegular = true →
    ∀ (level : Nat) (row : fields.Row) {σ : Type} {enter : String → σ → Reader σ}
      {isStrict : Bool} {all : List String} {lift : fields.Partial → σ},
    fields.Enters isStrict all enter lift → ∀ (isFirst : Bool) (rest : Bytes) {bound : Bytes},
      (fields.toMembers row).length < bound.length →
      Takes (members enter bound isFirst (lift fields.nothing))
        (spell (membersFrom level isFirst (fields.toMembers row)) ++ rest)
        (lift (fields.written row)) rest
  | .done, _, _, _, _, _, _, _, _, _, _, rest, _, enough => members_takes_none enough _ rest
  | .field presence name schema fields, regular, level, (x, row), σ, enter, isStrict, all, lift,
      enters, isFirst, rest, bound, enough => by
      obtain ⟨regular, othersRegular⟩ := Bool.and_eq_true_iff.mp regular
      obtain ⟨fresh, regular⟩ := Bool.and_eq_true_iff.mp regular
      have others (y : Option schema.El) := fields.members_readBack othersRegular level row
        (enters.others (by simpa using fresh) y)
      by_cases left : presence = .elided ∧ schema.isInitial x
      · rw [Fields.toMembers, if_pos left] at enough ⊢
        rw [Fields.written, if_pos left]
        exact others none isFirst rest enough
      · rw [Fields.toMembers, if_neg left] at enough ⊢
        rw [Fields.written, if_neg left]
        have value := schema.readsBack regular (level + 1) x (blank_singleton (b := 0x20) rfl)
          (stops_prettyMembers level (fields.toMembers row) rest)
        have first := enters name List.mem_cons_self (none, fields.nothing) _ _ _
          (Fields.readMember_takes_own value fields.nothing)
        exact members_takes_some enough first (others (some x) false rest)

end

/-- A document in its pretty form is read back by its schema. -/
theorem Schema.decode_prettyDocument {s : Schema} (regular : s.isRegular = true) (x : s.El) :
    s.decode (Bytes.ofText (s.toJson x).prettyDocument) = .ok x := by
  have whole := s.readsBack regular 0 x blank_nil (stops_cons (b := 0x0a) (by decide) [])
  have text : Bytes.ofText (s.toJson x).prettyDocument
      = [] ++ spell (prettyAt 0 (s.toJson x)) ++ [0x0a] := by
    rw [prettyDocument, ofText_ofList, spell_append, List.nil_append]
    rfl
  rw [Schema.decode, text]
  exact all_of_takes whole (blank_singleton rfl)

end AbiCompat
