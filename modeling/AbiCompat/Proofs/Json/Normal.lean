/-
# The normal form of a document

One document can be written in several ways: an object as an array, a tag as an object, and some
members need not be there.  `Schema.normal` rewrites a JSON value into the one way in which the
writer has it.  It is told by the kinds of the fields alone, and looks neither at the reader nor at
the writer; what does not belong to the schema stays where it is.

## What is proved

`Schema.parse_of_decode`: a text that is accepted by a schema is the text of a value, and the
normal form of the value is the value of what is written for the document that was read.  It holds
for all schemas that are regular and exact at once; dumps and their entries are instances.

A schema is exact if its objects refuse members that they do not know, if the members that may be
left out are known by their names alone, and if objects have to be there.

## How

The induction is on the schema, as in the round trip, but along what the reader accepted
(`Normalizes`).  Members come in any order, so what was read so far is known by names (`Known`):
for each field that was read its value in the form in which it is written, and for no other field
anything.
-/
import AbiCompat.Proofs.Json.Accepted

namespace AbiCompat

open Reader

/-! ## Rewriting -/

/-- What stands for a field that is missing. -/
def Schema.absent : Schema → Json
  | .text => .string ""
  | .flag => .bool false
  | .uint64 | .uint32 | .int64 => .number (.natural 0)
  | .list _ => .array []
  | .option _ => .null
  | .tag first _ => .string first
  | .object _ _ _ => .object []

/-- Whether a value is what stands for a field that is missing. -/
def Schema.isAbsent : Schema → Json → Bool
  | .text, .string s => s == ""
  | .flag, .bool b => b == false
  | .uint64, .number (.natural n) | .uint32, .number (.natural n)
  | .int64, .number (.natural n) => n == 0
  | .list _, .array js => js.isEmpty
  | .option _, .null => true
  | .tag first _, .string s => s == first
  | _, _ => false

/-- The values of the members with a name. -/
def Json.named (name : String) (ms : List (String × Json)) : List Json :=
  (ms.filter fun m => m.1 == name).map Prod.snd

section Rewriting

-- the members that are left out where their values are those of missing ones
variable (leftOut : List String)

/-- The members for the values that are given for one field: a missing one is filled in if it may
be missing, and then left out if it is one of those that are. -/
def Fields.fill (presence : Presence) (name : String) (schema : Schema) (given : List Json) :
    List (String × Json) :=
  let values := if given.isEmpty ∧ presence ≠ .required then [schema.absent] else given
  (values.filter fun j => !(leftOut.contains name && schema.isAbsent j)).map fun j => (name, j)

mutual

/-- The value in the one way in which the writer has it. -/
def Schema.normal : Schema → Json → Json
  | .list item, .array js => .array (js.map item.normal)
  | .option inner, j => inner.normal j
  | .tag _ _, .object [(name, .null)] => .string name
  | .object _ _ fields, .object ms =>
    .object (fields.ofMembers ms ++ ms.filter fun m => !fields.names.contains m.1)
  | .object _ _ fields, .array js =>
    if js.length ≤ fields.size then .object (fields.ofItems js) else .array js
  | _, j => j

/-- The members of an object, in the order of the fields. -/
def Fields.ofMembers : Fields → List (String × Json) → List (String × Json)
  | .done, _ => []
  | .field presence name schema rest, ms =>
    Fields.fill leftOut presence name schema ((Json.named name ms).map schema.normal)
      ++ rest.ofMembers ms

/-- The members of an object that is written as the array of its values. -/
def Fields.ofItems : Fields → List Json → List (String × Json)
  | .done, _ => []
  | .field presence name schema rest, js =>
    Fields.fill leftOut presence name schema ((js.take 1).map schema.normal)
      ++ rest.ofItems (js.drop 1)

end

end Rewriting

/-! ## Schemas with a normal form -/

def Schema.isObject : Schema → Bool
  | .object _ _ _ => true
  | _ => false

mutual

/-- Whether objects refuse members that they do not know, the members with the given names are
those that are left out, and objects have to be there. -/
def Schema.isExact (leftOut : List String) : Schema → Bool
  | .list item => item.isExact leftOut
  | .option inner => inner.isExact leftOut
  | .object _ isStrict fields => isStrict && fields.isExact leftOut
  | _ => true

def Fields.isExact (leftOut : List String) : Fields → Bool
  | .done => true
  | .field presence name schema rest =>
    decide (leftOut.contains name = true ↔ presence = .elided)
      && (decide (presence = .required) || !schema.isObject)
      && schema.isExact leftOut && rest.isExact leftOut

end

/-! ## Missing values

A missing value is filled in, and what is left out when writing is what stands for a missing value.
-/

theorem Json.ofInt64_ne_null (x : Int64) : Json.ofInt64 x ≠ .null := by
  intro null
  rw [Json.ofInt64] at null
  split at null <;> cases null

namespace Schema

theorem toJson_initial : ∀ s : Schema, s.isObject = false → s.toJson s.initial = s.absent
  | .text, _ | .flag, _ | .uint64, _ | .uint32, _ | .int64, _ | .list _, _ | .option _, _
  | .tag _ _, _ => rfl
  | .object _ _ _, h => by cases h

theorem toJson_ne_null (s : Schema) (x : s.El) (h : s.isOption = false) : s.toJson x ≠ .null := by
  intro null
  cases s with
  | int64 => exact Json.ofInt64_ne_null x null
  | option _ => cases h
  | _ => cases null

theorem isAbsent_toJson : ∀ (s : Schema), s.isRegular = true → ∀ x : s.El,
    s.isAbsent (s.toJson x) = s.isInitial x
  | .text, _, (x : String) => rfl
  | .flag, _, (x : Bool) => rfl
  | .uint64, _, (x : UInt64) => rfl
  | .uint32, _, (x : UInt32) => by
      show (x.toUInt64 == 0) = (x == 0)
      rw [Bool.eq_iff_iff, beq_iff_eq, beq_iff_eq]
      exact UInt32.toUInt64_inj (b := 0)
  | .int64, _, (x : Int64) => by
      show int64.isAbsent (.ofInt64 x) = (x == 0)
      rw [Json.ofInt64]
      split
      · show (x.toUInt64 == 0) = (x == 0)
        rw [Bool.eq_iff_iff, beq_iff_eq, beq_iff_eq]
        exact ⟨congrArg Int64.ofUInt64, congrArg Int64.toUInt64⟩
      · rename_i negative
        refine (beq_eq_false_iff_ne.mpr ?_).symm
        rintro rfl
        exact negative Int64.le_rfl
  | .list item, _, (xs : List item.El) => by
      rw [toJson_list]
      exact List.isEmpty_map
  | .option _, _, (none : Option _) => rfl
  | .option inner, regular, (some x : Option inner.El) => by
      rw [toJson_some]
      have other := inner.toJson_ne_null x
        ((Bool.not_eq_eq_eq_not.mp (Bool.and_eq_true_iff.mp regular).1))
      show (option inner).isAbsent (inner.toJson x) = false
      cases value : inner.toJson x with
      | null => exact absurd value other
      | _ => rfl
  | .tag first rest, distinct, (i : Fin (rest.length + 1)) => by
      show (tagName first rest i == first) = (i.val == 0)
      rw [Bool.eq_iff_iff, beq_iff_eq, beq_iff_eq]
      have start : first = (first :: rest)[0] := rfl
      rw [tagName]
      conv_lhs => rw [start]
      exact List.getElem_inj (of_decide_eq_true distinct)
  | .object _ _ _, _, _ => rfl

end Schema

namespace Fields

variable {leftOut : List String} {presence : Presence} {name : String} {schema : Schema}
  {fields : Fields}

theorem isExact_field (h : (field presence name schema fields).isExact leftOut = true) :
    (leftOut.contains name = true ↔ presence = .elided)
      ∧ (presence = .required ∨ schema.isObject = false) ∧ schema.isExact leftOut = true
      ∧ fields.isExact leftOut = true := by
  simp only [isExact, Bool.and_eq_true, Bool.or_eq_true, decide_eq_true_eq, Bool.not_eq_eq_eq_not,
    Bool.not_true] at h
  exact ⟨h.1.1.1, h.1.1.2, h.1.2, h.2⟩

theorem isRegular_field (h : (field presence name schema fields).isRegular = true) :
    name ∉ fields.names ∧ schema.isRegular = true ∧ fields.isRegular = true := by
  simp only [isRegular, Bool.and_eq_true, Bool.not_eq_eq_eq_not, Bool.not_true] at h
  exact ⟨by simpa using h.1.1, h.1.2, h.2⟩

theorem fill_singleton (j : Json) : fill leftOut presence name schema [j]
    = if leftOut.contains name && schema.isAbsent j then [] else [(name, j)] := by
  simp only [fill, List.isEmpty_cons, Bool.false_eq_true, false_and, if_false, List.filter_cons,
    List.filter_nil]
  cases leftOut.contains name && schema.isAbsent j <;> rfl

theorem fill_nil (free : presence ≠ .required) :
    fill leftOut presence name schema [] = fill leftOut presence name schema [schema.absent] := by
  simp [fill, free]

theorem fill_toJson (elided : leftOut.contains name = true ↔ presence = .elided)
    (regular : schema.isRegular = true) (x : schema.El) (row : fields.Row) :
    fill leftOut presence name schema [schema.toJson x] ++ fields.toMembers row
      = (field presence name schema fields).toMembers (x, row) := by
  have same : (leftOut.contains name && schema.isAbsent (schema.toJson x)) = true
      ↔ presence = .elided ∧ schema.isInitial x = true := by
    rw [schema.isAbsent_toJson regular, Bool.and_eq_true, elided]
  rw [fill_singleton, toMembers]
  by_cases left : presence = .elided ∧ schema.isInitial x = true
  · rw [if_pos left, if_pos (same.mpr left), List.nil_append]
  · rw [if_neg left, if_neg (mt same.mp left), List.singleton_append]

theorem fill_missing (elided : leftOut.contains name = true ↔ presence = .elided)
    (regular : schema.isRegular = true) (scalar : schema.isObject = false)
    (free : presence ≠ .required) (row : fields.Row) :
    fill leftOut presence name schema [] ++ fields.toMembers row
      = (field presence name schema fields).toMembers (schema.initial, row) := by
  rw [fill_nil free, ← schema.toJson_initial scalar, fill_toJson elided regular]

end Fields

/-! ## Members that were read -/

theorem Json.named_append (name : String) (ms : List (String × Json)) (other : String) (j : Json) :
    named name (ms ++ [(other, j)]) = named name ms ++ if other = name then [j] else [] := by
  simp only [named, List.filter_append, List.map_append, List.filter_cons, List.filter_nil,
    beq_iff_eq]
  split <;> rfl

namespace Fields

variable {leftOut : List String}

/-- What was read for the fields are the values of the members, each in the one way in which the
writer has it. -/
def Known (leftOut : List String) : (fields : Fields) → fields.Partial → List (String × Json) →
    Prop
  | .done, _, _ => True
  | .field _ name schema rest, (x, p), ms =>
    (Json.named name ms).map (schema.normal leftOut) = x.toList.map schema.toJson
      ∧ rest.Known leftOut p ms

theorem known_nothing : ∀ fields : Fields, fields.Known leftOut fields.nothing []
  | .done => trivial
  | .field _ _ _ rest => ⟨rfl, rest.known_nothing⟩

theorem Known.other {other : String} {j : Json} {ms : List (String × Json)} :
    ∀ {fields : Fields} {p : fields.Partial}, other ∉ fields.names → fields.Known leftOut p ms →
      fields.Known leftOut p (ms ++ [(other, j)])
  | .done, _, _, _ => trivial
  | .field _ name schema rest, (x, p), unlike, ⟨own, others⟩ => by
      have differs : other ≠ name := fun same => unlike (same ▸ List.mem_cons_self)
      refine ⟨?_, others.other fun mem => unlike (List.mem_cons_of_mem _ mem)⟩
      rw [Json.named_append, if_neg differs, List.append_nil]
      exact own

theorem of_complete_field {presence : Presence} {name : String} {schema : Schema} {rest : Fields}
    {x : Option schema.El} {p : rest.Partial} {y : schema.El} {row : rest.Row}
    (h : (field presence name schema rest).complete (x, p) = .ok (y, row)) :
    rest.complete p = .ok row
      ∧ (x = some y ∨ x = none ∧ presence ≠ .required ∧ y = schema.initial) := by
  simp only [complete] at h
  cases others : rest.complete p with
  | error fault =>
      rw [others] at h
      cases x with
      | some x => cases h
      | none =>
          dsimp only at h
          split at h <;> cases h
  | ok row' =>
      rw [others] at h
      cases x with
      | some x =>
          cases h
          exact ⟨rfl, .inl rfl⟩
      | none =>
          dsimp only at h
          split at h
          · cases h
          · rename_i free
            cases h
            exact ⟨rfl, .inr ⟨rfl, free, rfl⟩⟩

/-- Members that are complete make the row that is written. -/
theorem Known.ofMembers {ms : List (String × Json)} : ∀ {fields : Fields} {p : fields.Partial}
    {row : fields.Row}, fields.isExact leftOut = true → fields.isRegular = true →
      fields.Known leftOut p ms → fields.complete p = .ok row →
        fields.ofMembers leftOut ms = fields.toMembers row
  | .done, _, _, _, _, _, _ => rfl
  | .field presence name schema rest, (x, p), (y, row), precise, regular, ⟨own, others⟩,
      complete => by
      obtain ⟨elided, kind, -, exactRest⟩ := isExact_field precise
      obtain ⟨-, regularSchema, regularRest⟩ := isRegular_field regular
      obtain ⟨completeRest, value⟩ := of_complete_field complete
      rw [Fields.ofMembers, own, others.ofMembers exactRest regularRest completeRest]
      rcases value with rfl | ⟨rfl, free, rfl⟩
      · exact fill_toJson elided regularSchema y row
      · exact fill_missing elided regularSchema (kind.resolve_left free) free row

end Fields

/-! ## Documents that were read -/

theorem Spells.at_end {isFirst : Bool} {bs tail rest : Bytes} {js : List Json}
    (h : Spells bs (.items isFirst js) rest) (closed : Sees bs Byte.closeBracket tail) :
    js = [] ∧ rest = tail := by
  cases h with
  | noItem sees =>
      rw [Sees, closed] at sees
      cases sees
      exact ⟨rfl, rfl⟩
  | item starts value others =>
      cases isFirst with
      | true =>
          cases starts
          obtain ⟨b, after, sees, notEnd⟩ := value.opens
          rw [Sees, closed] at sees
          cases sees
          exact absurd rfl notEnd
      | false =>
          have comma : bs.dropWhile Byte.isBlank = _ := starts
          rw [closed] at comma
          cases comma

theorem Fields.readItems_field (presence : Presence) (name : String) (schema : Schema)
    (rest : Fields) (shape : String) (size : Nat) (isFirst : Bool) (index : Nat) :
    (Fields.field presence name schema rest).readItems shape size isFirst index = (do
      if ← hasItem isFirst then
        let x ← schema.read
        let row ← rest.readItems shape size false (index + 1)
        return (x, row)
      else if presence = .required then throw (.mismatch (.tooShort index shape size))
      else
        let row ← rest.readItems shape size isFirst (index + 1)
        return (schema.initial, row) : Reader (schema.El × rest.Row)) := rfl

section Normal

variable {leftOut : List String}

namespace Schema

theorem normal_null : ∀ s : Schema, s.normal leftOut .null = .null
  | .text | .flag | .uint64 | .uint32 | .int64 | .list _ | .tag _ _ | .object _ _ _ => rfl
  | .option inner => inner.normal_null

theorem normal_object (name : String) (isStrict : Bool) (fields : Fields)
    (ms : List (String × Json)) : (object name isStrict fields).normal leftOut (.object ms)
      = .object (fields.ofMembers leftOut ms ++ ms.filter fun m => !fields.names.contains m.1) :=
  rfl

theorem normal_array (name : String) (isStrict : Bool) (fields : Fields) (js : List Json) :
    (object name isStrict fields).normal leftOut (.array js)
      = if js.length ≤ fields.size then .object (fields.ofItems leftOut js) else .array js := rfl

/-- What is read by the schema is the text of a value whose normal form is what is written. -/
def Normalizes (leftOut : List String) (s : Schema) : Prop :=
  Accepts s.read fun x j => s.normal leftOut j = s.toJson x

theorem Normalizes.list {item : Schema} (each : item.Normalizes leftOut) :
    (Schema.list item).Normalizes leftOut := by
  intro bs xs rest h
  obtain ⟨j, spells, js, rfl, related⟩ := Accepts.list each h
  clear h
  have all : js.map (item.normal leftOut) = xs.map item.toJson := by
    clear spells
    induction related with
    | nil => rfl
    | cons head _ ih => rw [List.map_cons, List.map_cons, head, ih]
  exact ⟨.array js, spells, congrArg Json.array all⟩

theorem Normalizes.option {inner : Schema} (some : inner.Normalizes leftOut) :
    (Schema.option inner).Normalizes leftOut := by
  intro bs o rest h
  rcases spells_of_option h with ⟨rfl, spells⟩ | ⟨x, rfl, read⟩
  · exact ⟨.null, spells, inner.normal_null⟩
  · obtain ⟨j, spells, same⟩ := some read
    exact ⟨j, spells.of_blanks, same⟩

end Schema

namespace Fields

variable {presence : Presence} {name : String} {schema : Schema} {fields : Fields}

/-- What is read as an array of values is the text of items that make the row that is written. -/
def NormalizesItems (leftOut : List String) (fields : Fields) : Prop :=
  ∀ ⦃shape : String⦄ ⦃size : Nat⦄ ⦃isFirst : Bool⦄ ⦃index : Nat⦄ ⦃bs mid rest : Bytes⦄
    ⦃row : fields.Row⦄, Takes (fields.readItems shape size isFirst index) bs row mid →
      Sees mid Byte.closeBracket rest →
        ∃ js, Spells bs (.items isFirst js) rest ∧ js.length ≤ fields.size
          ∧ fields.ofItems leftOut js = fields.toMembers row

/-- What is read as a member is the text of its value, which is known after that. -/
def NormalizesMembers (leftOut : List String) (fields : Fields) : Prop :=
  ∀ ⦃all : List String⦄ ⦃name : String⦄ ⦃p q : fields.Partial⦄ ⦃bs rest : Bytes⦄
    ⦃ms : List (String × Json)⦄, fields.Known leftOut p ms →
      Takes (fields.readMember true all name p) bs q rest →
        ∃ after j, Sees bs Byte.colon after ∧ Spells after (.value j) rest
          ∧ fields.Known leftOut q (ms ++ [(name, j)]) ∧ name ∈ fields.names

theorem normalizesItems_done : done.NormalizesItems leftOut := by
  intro shape size isFirst index bs mid rest row h closed
  obtain ⟨-, rfl⟩ := Takes.of_pure h
  exact ⟨[], .noItem closed, Nat.le_refl _, rfl⟩

theorem NormalizesItems.field (precise : (field presence name schema fields).isExact leftOut = true)
    (regular : (field presence name schema fields).isRegular = true)
    (first : schema.Normalizes leftOut) (others : fields.NormalizesItems leftOut) :
    (Fields.field presence name schema fields).NormalizesItems leftOut := by
  intro shape size isFirst index bs mid rest row h closed
  obtain ⟨elided, kind, -, -⟩ := isExact_field precise
  obtain ⟨-, regularSchema, -⟩ := isRegular_field regular
  rw [readItems_field] at h
  obtain ⟨more, start, asked, h⟩ := h.of_bind
  rcases spells_of_hasItem asked with ⟨rfl, tail, rfl, ends⟩ | ⟨rfl, next⟩
  · -- the array ends here, so that the fields after this one are missing as well
    rw [if_neg Bool.false_ne_true] at h
    split at h
    · exact absurd h Takes.not_throw
    · rename_i free
      obtain ⟨row', mid, read, h⟩ := h.of_bind
      obtain ⟨rfl, rfl⟩ := h.of_pure
      obtain ⟨js, spells, -, same⟩ := others read closed
      obtain ⟨rfl, rfl⟩ := spells.at_end (sees_cons rfl tail)
      refine ⟨[], .noItem ends, Nat.zero_le _, ?_⟩
      rw [← fill_missing elided regularSchema (kind.resolve_left free) free, ← same]
      rfl
  · rw [if_pos rfl] at h
    obtain ⟨x, mid, value, h⟩ := h.of_bind
    obtain ⟨row', after, read, h⟩ := h.of_bind
    obtain ⟨rfl, rfl⟩ := h.of_pure
    obtain ⟨j, spelled, same⟩ := first value
    obtain ⟨js, items, short, sameRest⟩ := others read closed
    refine ⟨j :: js, next spelled items, Nat.succ_le_succ short, ?_⟩
    rw [← fill_toJson elided regularSchema, ← same, ← sameRest]
    rfl

theorem normalizesMembers_done : done.NormalizesMembers leftOut := by
  intro all name p q bs rest ms _ h
  exact absurd h Takes.not_throw

theorem NormalizesMembers.field (fresh : name ∉ fields.names) (own : schema.Normalizes leftOut)
    (others : fields.NormalizesMembers leftOut) :
    (Fields.field presence name schema fields).NormalizesMembers leftOut := by
  rintro all other ⟨x, p⟩ q bs rest ms ⟨known, knownRest⟩ h
  rw [readMember_field] at h
  split at h
  · rename_i same
    split at h
    · exact absurd h Takes.not_throw
    · rename_i unread
      obtain ⟨u, after, expected, h⟩ := h.of_bind
      obtain ⟨y, mid, value, h⟩ := h.of_bind
      obtain ⟨rfl, rfl⟩ := h.of_pure
      obtain ⟨j, spelled, sameValue⟩ := own value
      refine ⟨after, j, sees_of_expect expected, spelled, ⟨?_, ?_⟩, ?_⟩
      · have none : x = none := Option.not_isSome_iff_eq_none.mp unread
        rw [Json.named_append, if_pos same, List.map_append, known, none, List.map_singleton,
          sameValue]
        rfl
      · exact knownRest.other (same ▸ fresh)
      · rw [same]
        exact List.mem_cons_self
  · rename_i differs
    obtain ⟨q', mid, entered, h⟩ := h.of_bind
    obtain ⟨rfl, rfl⟩ := h.of_pure
    obtain ⟨after, j, colon, spelled, knownRest, mem⟩ := others knownRest entered
    refine ⟨after, j, colon, spelled, ⟨?_, knownRest⟩, List.mem_cons_of_mem _ mem⟩
    rw [Json.named_append, if_neg differs, List.append_nil]
    exact known

/-- What is read as all members of an object. -/
theorem NormalizesMembers.all (each : fields.NormalizesMembers leftOut) (name : String)
    (precise : fields.isExact leftOut = true) (regular : fields.isRegular = true)
    {bound bs rest : Bytes} {p : fields.Partial} {row : fields.Row}
    (h : Takes (members (fields.readMember true fields.names) bound true fields.nothing) bs p rest)
    (complete : fields.complete p = .ok row) :
    ∃ ms, Spells bs (.members true ms) rest
      ∧ (Schema.object name true fields).normal leftOut (.object ms)
        = .object (fields.toMembers row) := by
  obtain ⟨ms, spells, known, among⟩ := spells_of_members
    (I := fun p ms => fields.Known leftOut p ms ∧ ∀ m ∈ ms, m.1 ∈ fields.names)
    (fun other p bs q rest ms ⟨known, among⟩ entered => by
      obtain ⟨after, j, colon, value, known, mem⟩ := each known entered
      refine ⟨after, j, colon, value, known, fun m listed => ?_⟩
      rcases List.mem_append.mp listed with listed | listed
      · exact among m listed
      · cases List.mem_singleton.mp listed
        exact mem)
    ⟨fields.known_nothing, nofun⟩ h
  rw [List.nil_append] at known among
  have none : (ms.filter fun m => !fields.names.contains m.1) = [] :=
    List.filter_eq_nil_iff.mpr fun m mem => by simpa using among m mem
  refine ⟨ms, spells, ?_⟩
  rw [Schema.normal_object, none, List.append_nil, known.ofMembers precise regular complete]

end Fields

theorem Schema.Normalizes.object {name : String} {fields : Fields}
    (precise : fields.isExact leftOut = true) (regular : fields.isRegular = true)
    (items : fields.NormalizesItems leftOut) (each : fields.NormalizesMembers leftOut) :
    (Schema.object name true fields).Normalizes leftOut := by
  intro bs row rest h
  rw [Schema.read_object] at h
  obtain ⟨o, mid, looked, h⟩ := h.of_bind
  cases o with
  | none => exact absurd h Takes.not_throw
  | some b =>
      dsimp only at h
      split at h
      · rename_i bracket
        cases bracket
        obtain ⟨u, tail, advanced, h⟩ := h.of_bind
        obtain ⟨row', mid, read, h⟩ := h.of_bind
        obtain ⟨u, after, expected, h⟩ := h.of_bind
        obtain ⟨rfl, rfl⟩ := h.of_pure
        obtain ⟨js, spells, short, same⟩ := items read (sees_of_expect expected)
        refine ⟨.array js, .array (sees_of_advance looked advanced) spells, ?_⟩
        show (Schema.object name true fields).normal leftOut (.array js)
          = .object (fields.toMembers row')
        rw [normal_array, if_pos short, same]
      · split at h
        · rename_i brace
          cases brace
          obtain ⟨u, tail, advanced, h⟩ := h.of_bind
          obtain ⟨bound, mid, same, h⟩ := h.of_bind
          cases same
          obtain ⟨p, mid, read, h⟩ := h.of_bind
          split at h
          · rename_i complete
            obtain ⟨rfl, rfl⟩ := h.of_pure
            obtain ⟨ms, spells, same⟩ := each.all name precise regular read complete
            exact ⟨.object ms, .object (sees_of_advance looked advanced) spells, same⟩
          · exact absurd h Takes.not_throw
        · exact (fails_wrongKind _ h).elim

mutual

/-- A schema reads nothing but texts of values whose normal form it writes. -/
theorem Schema.normalizes : ∀ s : Schema, s.isExact leftOut = true → s.isRegular = true →
    s.Normalizes leftOut
  | .text, _, _ => fun _ _ _ h => ⟨_, spells_of_text h, rfl⟩
  | .flag, _, _ => fun _ _ _ h => ⟨_, spells_of_flag h, rfl⟩
  | .uint64, _, _ => fun _ _ _ h =>
      have ⟨n, spells, fits⟩ := spells_of_integer h
      ⟨.number n, spells, congrArg Json.number fits.uint64⟩
  | .uint32, _, _ => fun _ _ _ h =>
      have ⟨n, spells, fits⟩ := spells_of_integer h
      ⟨.number n, spells, congrArg Json.number fits.uint32⟩
  | .int64, _, _ => fun _ _ _ h =>
      have ⟨n, spells, fits⟩ := spells_of_integer h
      ⟨.number n, spells, fits.int64⟩
  | .list item, precise, regular => (item.normalizes precise regular).list
  | .option inner, precise, regular =>
      (inner.normalizes precise (Bool.and_eq_true_iff.mp regular).2).option
  | .tag _ _, _, _ => by
      intro bs i rest h
      rcases spells_of_tag h with spells | spells
      · exact ⟨_, spells, rfl⟩
      · exact ⟨_, spells, rfl⟩
  | .object name isStrict fields, precise, regular => by
      obtain ⟨rfl, precise⟩ := Bool.and_eq_true_iff.mp precise
      obtain ⟨items, members⟩ := fields.normalizes precise regular
      exact .object precise regular items members

theorem Fields.normalizes : ∀ fields : Fields, fields.isExact leftOut = true →
    fields.isRegular = true → fields.NormalizesItems leftOut ∧ fields.NormalizesMembers leftOut
  | .done, _, _ => ⟨Fields.normalizesItems_done, Fields.normalizesMembers_done⟩
  | .field presence name schema fields, precise, regular => by
      obtain ⟨-, -, exactSchema, exactRest⟩ := Fields.isExact_field precise
      obtain ⟨fresh, regularSchema, regularRest⟩ := Fields.isRegular_field regular
      have first := schema.normalizes exactSchema regularSchema
      obtain ⟨items, members⟩ := fields.normalizes exactRest regularRest
      exact ⟨.field precise regular first items, .field fresh first members⟩

end

/-- A document that is accepted is the text of a value whose normal form is what is written. -/
theorem Schema.parse_of_decode {s : Schema} (precise : s.isExact leftOut = true)
    (regular : s.isRegular = true) {bs : Bytes} {x : s.El} (read : s.decode bs = .ok x) :
    ∃ j, Json.parse bs = .ok j ∧ s.normal leftOut j = s.toJson x := by
  obtain ⟨rest, takes, blank⟩ := takes_of_all read
  obtain ⟨j, spells, same⟩ := s.normalizes precise regular takes
  exact ⟨j, spells.parse blank, same⟩

end Normal

end AbiCompat
