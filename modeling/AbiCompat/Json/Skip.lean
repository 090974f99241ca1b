/-
# Passing over a value

A member that nobody asked for is not looked at beyond its grammar: surrogates in its strings need
not be paired and its numbers may be too large, and a number that breaks off is malformed even at
the end of the text.

Every step takes a byte, so that the text at the start, given as an argument, bounds the number of
steps.
-/
import AbiCompat.Json.Quotation

namespace AbiCompat.Reader

/-- Passes an escape after its backslash. -/
def skipEscape : Reader Unit := do
  let b ← next
  if b = 0x75 then
    let _ ← hex4
  else if (shortEscape? b).isNone then throw .malformed

/-- Passes a string after its opening quote. -/
def skipQuotation : Bytes → Reader Unit
  | [] => throw .truncated
  | _ :: bound => do
    let b ← next
    if b = Byte.quote then return ()
    else if b < 0x20 then throw .malformed
    else if b = Byte.backslash then skipEscape; skipQuotation bound
    else skipQuotation bound

/-- Passes one digit or more. -/
def skipDigits : Reader Unit := do
  if (← run Byte.isDigit).isEmpty then throw .malformed

/-- Passes a number. -/
def skipNumber : Reader Unit := do
  if (← peek?) = some Byte.minus then advance
  let whole ← run Byte.isDigit
  if whole.isEmpty ∨ (whole.head? = some 0x30 ∧ whole.length ≠ 1) then throw .malformed
  if (← peek?) = some Byte.point then
    advance
    skipDigits
  let b ← peek?
  if b = some 0x65 ∨ b = some 0x45 then
    advance
    let sign ← peek?
    if sign = some Byte.minus ∨ sign = some Byte.plus then advance
    skipDigits

/-- Passes the name of a member and its colon. -/
def skipName (bound : Bytes) : Reader Unit := do
  expect Byte.quote
  skipQuotation bound
  expect Byte.colon

mutual

/-- Passes a value. -/
def skipValue : Bytes → Reader Unit
  | [] => throw .truncated
  | _ :: bound => do
    match ← look? with
    | none => throw .truncated
    | some b =>
      if b = 0x6e then advance; word [0x75, 0x6c, 0x6c]
      else if b = 0x74 then advance; word [0x72, 0x75, 0x65]
      else if b = 0x66 then advance; word [0x61, 0x6c, 0x73, 0x65]
      else if b = Byte.minus || Byte.isDigit b then skipNumber
      else if b = Byte.quote then advance; skipQuotation bound
      else if b = Byte.openBracket then
        advance
        if (← look?) = some Byte.closeBracket then advance
        else
          skipValue bound
          skipItems bound
      else if b = Byte.openBrace then
        advance
        if (← look?) = some Byte.closeBrace then advance
        else
          skipName bound
          skipValue bound
          skipMembers bound
      else throw .malformed

/-- Passes the rest of an array after one of its items. -/
def skipItems : Bytes → Reader Unit
  | [] => throw .truncated
  | _ :: bound => do
    let b ← look?
    if b = some Byte.closeBracket then advance
    else if b = some Byte.comma then
      advance
      skipValue bound
      skipItems bound
    else unexpected b

/-- Passes the rest of an object after one of its members. -/
def skipMembers : Bytes → Reader Unit
  | [] => throw .truncated
  | _ :: bound => do
    let b ← look?
    if b = some Byte.closeBrace then advance
    else if b = some Byte.comma then
      advance
      skipName bound
      skipValue bound
      skipMembers bound
    else unexpected b

end

end AbiCompat.Reader
