/-
# Reading any JSON value

The grammar as a reader of values, beside the readers that go by a schema.

Every step takes a byte, so that the text at the start, given as an argument, bounds the number of
steps.
-/
import AbiCompat.Json.Numeral
import AbiCompat.Json.Quotation

namespace AbiCompat.Reader

mutual

def value : Bytes → Reader Json
  | [] => throw .truncated
  | _ :: bound => do
    match ← look? with
    | none => throw .truncated
    | some b =>
      if b = 0x6e then advance; word [0x75, 0x6c, 0x6c]; return .null
      else if b = 0x74 then advance; word [0x72, 0x75, 0x65]; return .bool true
      else if b = 0x66 then advance; word [0x61, 0x6c, 0x73, 0x65]; return .bool false
      else if b = Byte.minus || Byte.isDigit b then return .number (← number)
      else if b = Byte.quote then advance; return .string (← quotation)
      else if b = Byte.openBracket then
        advance
        if (← look?) = some Byte.closeBracket then advance; return .array []
        else
          let x ← value bound
          return .array (x :: (← valuesAfter bound))
      else if b = Byte.openBrace then
        advance
        if (← look?) = some Byte.closeBrace then advance; return .object []
        else
          let m ← namedValue bound
          return .object (m :: (← namedValuesAfter bound))
      else throw .malformed

/-- The rest of an array after one of its items. -/
def valuesAfter : Bytes → Reader (List Json)
  | [] => throw .truncated
  | _ :: bound => do
    let b ← look?
    if b = some Byte.closeBracket then advance; return []
    else if b = some Byte.comma then
      advance
      let x ← value bound
      return x :: (← valuesAfter bound)
    else unexpected b

/-- A member: its name, a colon and its value. -/
def namedValue : Bytes → Reader (String × Json)
  | [] => throw .truncated
  | _ :: bound => do
    expect Byte.quote
    let name ← quotation
    expect Byte.colon
    return (name, ← value bound)

/-- The rest of an object after one of its members. -/
def namedValuesAfter : Bytes → Reader (List (String × Json))
  | [] => throw .truncated
  | _ :: bound => do
    let b ← look?
    if b = some Byte.closeBrace then advance; return []
    else if b = some Byte.comma then
      advance
      let m ← namedValue bound
      return m :: (← namedValuesAfter bound)
    else unexpected b

end

end AbiCompat.Reader

namespace AbiCompat.Json

/-- The value that a text is. -/
def parse (bs : Bytes) : Except Fault Json := Reader.all (Reader.value bs) bs

end AbiCompat.Json
