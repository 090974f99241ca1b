/-
# Reading a document by its schema

The text is read once from left to right.  A document with fields is an object, or an array of the
values of its fields in their order; a name is a string, or an object with that name as its only
member and `null` as its value.

No JSON value is made on the way: what is read goes to its place in the document at once, and a
fault is found at the first byte that cannot belong to a document of the schema.  Which documents
that accepts, in terms of values, is the subject of `Proofs/Json/Accepted`.

Every reader of this module is given by recursion on the schema.  Lists and members have a bound on
their length, which is the length of the text.
-/
import AbiCompat.Json.Numeral
import AbiCompat.Json.Quotation
import AbiCompat.Json.Skip
import AbiCompat.Json.Schema

namespace AbiCompat

namespace Reader

/-! ## What stands where something else was wanted -/

/-- Takes what stands here far enough to name it, and refuses it. -/
def wrongKind {α : Type} (wanted : String) : Reader α := do
  let refuse (found : Found) : Reader α := throw (.mismatch (.wrongKind found wanted))
  match ← peek? with
  | none => throw .truncated
  | some b =>
    if b = 0x6e then advance; word [0x75, 0x6c, 0x6c]; refuse .null
    else if b = 0x74 then advance; word [0x72, 0x75, 0x65]; refuse (.flag true)
    else if b = 0x66 then advance; word [0x61, 0x6c, 0x73, 0x65]; refuse (.flag false)
    else if b = Byte.minus || Byte.isDigit b then
      match ← number with
      | .natural n => refuse (.integer n.toNat)
      | .negative n => refuse (.integer n.toInt)
      | .float x => refuse (.float x)
    else if b = Byte.quote then advance; refuse (.text (← quotation))
    else if b = Byte.openBracket then refuse .sequence
    else if b = Byte.openBrace then refuse .map
    else throw .malformed

/-! ## Scalars -/

def text : Reader String := do
  if (← look?) = some Byte.quote then advance; quotation
  else wrongKind "a string"

/-- A string that names what follows; nothing else may stand in its place. -/
def name : Reader String := do
  let b ← look?
  if b = some Byte.quote then advance; quotation
  else unexpected b

/-- A truth value. -/
def flag : Reader Bool := do
  let b ← look?
  if b = some 0x74 then advance; word [0x72, 0x75, 0x65]; return true
  else if b = some 0x66 then advance; word [0x61, 0x6c, 0x73, 0x65]; return false
  else wrongKind "a boolean"

/-- An integer that some type can hold. -/
def integer {α : Type} (wanted : String) (fits? : Int → Option α) : Reader α := do
  let inRange (n : Int) : Reader α :=
    match fits? n with
    | some x => return x
    | none => throw (.mismatch (.outOfRange n wanted))
  match ← look? with
  | none => throw .truncated
  | some b =>
    if b = Byte.minus || Byte.isDigit b then
      match ← number with
      | .natural n => inRange n.toNat
      | .negative n => inRange n.toInt
      | .float x => throw (.mismatch (.wrongKind (.float x) wanted))
    else wrongKind wanted

/-- The unsigned 64-bit integer of a number. -/
def fitsUInt64? (n : Int) : Option UInt64 :=
  if 0 ≤ n ∧ n < UInt64.size then some (UInt64.ofNat n.toNat) else none

/-- The unsigned 32-bit integer of a number. -/
def fitsUInt32? (n : Int) : Option UInt32 :=
  if 0 ≤ n ∧ n < UInt32.size then some (UInt32.ofNat n.toNat) else none

/-- The signed 64-bit integer of a number. -/
def fitsInt64? (n : Int) : Option Int64 :=
  if Int64.minValue.toInt ≤ n ∧ n ≤ Int64.maxValue.toInt then some (Int64.ofInt n) else none

/-- A value that may be `null`. -/
def option {α : Type} (inner : Reader α) : Reader (Option α) := do
  if (← look?) = some 0x6e then advance; word [0x75, 0x6c, 0x6c]; return none
  else return some (← inner)

/-! ## Lists -/

/-- The items after the first one; the text before them bounds their number. -/
def itemsAfter {α : Type} (item : Reader α) : Bytes → Reader (List α)
  | [] => throw .truncated
  | _ :: bound => do
    let b ← look?
    if b = some Byte.closeBracket then advance; return []
    else if b = some Byte.comma then
      advance
      let x ← item
      return x :: (← itemsAfter item bound)
    else unexpected b

def list {α : Type} (item : Reader α) : Reader (List α) := do
  match ← look? with
  | none => throw .truncated
  | some b =>
    if b = Byte.openBracket then
      advance
      if (← look?) = some Byte.closeBracket then advance; return []
      else
        let x ← item
        return x :: (← itemsAfter item (← get))
    else wrongKind "a sequence"

/-! ## Names from a list -/

def place? (name : String) (known : List String) : Option (Fin known.length) :=
  known.finIdxOf? name

/-- The name that was read, as a place in the list of known ones. -/
def known (first : String) (rest : List String) (name : String) :
    Reader (Fin (rest.length + 1)) :=
  match place? name (first :: rest) with
  | some i => return i
  | none => throw (.mismatch (.unknownVariant name (first :: rest)))

/-- One of some names. -/
def tag (first : String) (rest : List String) : Reader (Fin (rest.length + 1)) := do
  let b ← look?
  if b = some Byte.quote then
    advance
    known first rest (← quotation)
  else if b = some Byte.openBrace then
    advance
    let i ← known first rest (← name)
    expect Byte.colon
    if (← look?) = some 0x6e then advance; word [0x75, 0x6c, 0x6c]
    else wrongKind "unit"
    expect Byte.closeBrace
    return i
  else unexpected b

/-! ## Members of an object -/

/-- The name of the next member, or nothing at the closing brace, which stays. -/
def memberName? (isFirst : Bool) : Reader (Option String) := do
  let b ← look?
  if b = some Byte.closeBrace then return none
  else if isFirst then return some (← name)
  else if b = some Byte.comma then
    advance
    return some (← name)
  else unexpected b

/-- Reads members into a state until the closing brace; the text before them bounds their
number. -/
def members {σ : Type} (enter : String → σ → Reader σ) : Bytes → Bool → σ → Reader σ
  | [], _, _ => throw .truncated
  | _ :: bound, isFirst, s => do
    match ← memberName? isFirst with
    | none => advance; return s
    | some name => members enter bound false (← enter name s)

/-- Whether another item of an array follows; its comma is taken off. -/
def hasItem (isFirst : Bool) : Reader Bool := do
  let b ← look?
  if b = some Byte.closeBracket then return false
  else if isFirst then
    if b = none then unexpected b
    return true
  else if b = some Byte.comma then advance; return true
  else unexpected b

end Reader

/-! ## Documents -/

/-- The members of an object read so far, field by field. -/
def Fields.Partial : Fields → Type
  | .done => Unit
  | .field _ _ schema rest => Option schema.El × rest.Partial

/-- No member read yet. -/
def Fields.nothing : (fs : Fields) → fs.Partial
  | .done => ()
  | .field _ _ _ rest => (none, rest.nothing)

/-- The row of the members, with initial values for missing ones that allow it. -/
def Fields.complete : (fs : Fields) → fs.Partial → Except Fault fs.Row
  | .done, _ => .ok ()
  | .field presence name schema rest, (x, p) => do
    let value ←
      match x with
      | some value => .ok value
      | none =>
        if presence = .required then .error (.mismatch (.missingMember name))
        else .ok schema.initial
    let row ← rest.complete p
    return (value, row)

open Reader in
mutual

/-- Reads a document of the schema. -/
def Schema.read : (s : Schema) → Reader s.El
  | .text => text
  | .flag => flag
  | .uint64 => integer "u64" fitsUInt64?
  | .uint32 => integer "u32" fitsUInt32?
  | .int64 => integer "i64" fitsInt64?
  | .list item => list item.read
  | .option inner => option inner.read
  | .tag first rest => tag first rest
  | .object name isStrict fields => do
    match ← look? with
    | none => throw .truncated
    | some b =>
      if b = Byte.openBracket then
        advance
        let row ← fields.readItems name fields.size true 0
        expect Byte.closeBracket
        return row
      else if b = Byte.openBrace then
        advance
        let p ← members (fields.readMember isStrict fields.names) (← get) true fields.nothing
        match fields.complete p with
        | .ok row => return row
        | .error fault => throw fault
      else wrongKind s!"struct {name}"

/-- Reads the values of fields that are written as an array, up to its end. -/
def Fields.readItems (shape : String) (size : Nat) : (fs : Fields) → Bool → Nat → Reader fs.Row
  | .done, _, _ => return ()
  | .field presence _ schema rest, isFirst, index => do
    if ← hasItem isFirst then
      let x ← schema.read
      let row ← rest.readItems shape size false (index + 1)
      return (x, row)
    else if presence = .required then throw (.mismatch (.tooShort index shape size))
    else
      let row ← rest.readItems shape size isFirst (index + 1)
      return (schema.initial, row)

/-- Reads the rest of the member with a name into its field. -/
def Fields.readMember (isStrict : Bool) (all : List String) :
    (fs : Fields) → String → fs.Partial → Reader fs.Partial
  | .done, name, _ =>
    if isStrict then throw (.mismatch (.unknownMember name all))
    else do
      expect Byte.colon
      skipValue (← get)
  | .field _ field schema rest, name, (x, p) =>
    if name = field then
      if x.isSome then throw (.mismatch (.repeatedMember name))
      else do
        expect Byte.colon
        let value ← schema.read
        return (some value, p)
    else do
      let p ← rest.readMember isStrict all name p
      return (x, p)

end

/-- The document that a text is, by its schema. -/
def Schema.decode (s : Schema) (bs : Bytes) : Except Fault s.El := Reader.all s.read bs

end AbiCompat
