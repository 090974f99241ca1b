/-
# String literals

Between the quotes stand bytes from the space on, and escapes.  The decoded bytes have to be UTF-8,
which is looked at when the closing quote is found.

A character beyond the first 65536 is written by two escapes that belong together; either alone is
refused.
-/
import AbiCompat.Json.Reader

namespace AbiCompat.Reader

/-- The value of four hexadecimal digits. -/
def hex4 : Reader Nat := fun
  | a :: b :: c :: d :: rest =>
    match Byte.hexDigit? a, Byte.hexDigit? b, Byte.hexDigit? c, Byte.hexDigit? d with
    | some a, some b, some c, some d => .ok (((a * 16 + b) * 16 + c) * 16 + d, rest)
    | _, _, _, _ => .error .malformed
  | _ => .error .truncated

/-- Takes exactly this byte. -/
def exactly (b : UInt8) : Reader Unit := do
  let found ← peek?
  if found = some b then advance else unexpected found

/-- The UTF-8 form of a code point. -/
def utf8 (n : Nat) : Bytes := String.utf8EncodeChar (Char.ofNat n)

/-- The character of a `u` escape; a leading surrogate needs a trailing one after it. -/
def codePoint : Reader Bytes := do
  let n ← hex4
  if 0xdc00 ≤ n ∧ n ≤ 0xdfff then throw .malformed
  else if 0xd800 ≤ n ∧ n ≤ 0xdbff then
    exactly Byte.backslash
    exactly 0x75
    let m ← hex4
    if 0xdc00 ≤ m ∧ m ≤ 0xdfff then
      return utf8 ((n - 0xd800) * 0x400 + (m - 0xdc00) + 0x10000)
    else throw .malformed
  else return utf8 n

/-- What the letter of a short escape stands for. -/
def shortEscape? (b : UInt8) : Option UInt8 :=
  if b = Byte.quote || b = Byte.backslash || b = 0x2f then some b
  else if b = 0x62 then some 0x08
  else if b = 0x66 then some 0x0c
  else if b = 0x6e then some 0x0a
  else if b = 0x72 then some 0x0d
  else if b = 0x74 then some 0x09
  else none

/-- What an escape stands for, after its backslash. -/
def escape : Reader Bytes := do
  let b ← next
  if b = 0x75 then codePoint
  else match shortEscape? b with
    | some c => return [c]
    | none => throw .malformed

/-- The decoded bytes up to the closing quote.  Every step takes a byte, so that the text
at the start bounds their number. -/
def quotedBytes : Bytes → Reader Bytes
  | [] => throw .truncated
  | _ :: bound => do
    let b ← next
    if b = Byte.quote then return []
    else if b < 0x20 then throw .malformed
    else if b = Byte.backslash then
      let first ← escape
      return first ++ (← quotedBytes bound)
    else return b :: (← quotedBytes bound)

/-- A string literal after its opening quote. -/
def quotation : Reader String := do
  let bs ← quotedBytes (← get)
  match Bytes.text? bs with
  | some s => return s
  | none => throw .malformed

end AbiCompat.Reader
