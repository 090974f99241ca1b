/-
# Reading a text from left to right

A reader takes bytes off the front of a text or finds a fault.  The first fault ends the reading,
so the order in which a reader looks at things is the order of faults.

Blanks are passed over before something is looked at, and not after something was taken.  So a
reader of a part never has to say what may follow it, but for numbers.
-/
import AbiCompat.Json.Fault
import AbiCompat.Text.Bytes

namespace AbiCompat

/-- Takes bytes off the front of a text. -/
abbrev Reader := StateT Bytes (Except Fault)

/-! ## Bytes with a meaning -/

namespace Byte

/-- The double quote. -/
def quote : UInt8 := 0x22
def backslash : UInt8 := 0x5c
def openBracket : UInt8 := 0x5b
/-- The closing bracket. -/
def closeBracket : UInt8 := 0x5d
def openBrace : UInt8 := 0x7b
/-- The closing brace. -/
def closeBrace : UInt8 := 0x7d
def comma : UInt8 := 0x2c
def colon : UInt8 := 0x3a
/-- The minus sign. -/
def minus : UInt8 := 0x2d
/-- The plus sign. -/
def plus : UInt8 := 0x2b
/-- The decimal point. -/
def point : UInt8 := 0x2e

/-- Space, line feed, tabulator and carriage return. -/
def isBlank (b : UInt8) : Bool := b == 0x20 || b == 0x0a || b == 0x09 || b == 0x0d

/-- The decimal digits. -/
def isDigit (b : UInt8) : Bool := 0x30 ≤ b && b ≤ 0x39

/-- The value of a decimal digit. -/
def digit (b : UInt8) : Nat := b.toNat - 0x30

/-- The value of a hexadecimal digit. -/
def hexDigit? (b : UInt8) : Option Nat :=
  if 0x30 ≤ b && b ≤ 0x39 then some (b.toNat - 0x30)
  else if 0x61 ≤ b && b ≤ 0x66 then some (b.toNat - 0x61 + 10)
  else if 0x41 ≤ b && b ≤ 0x46 then some (b.toNat - 0x41 + 10)
  else none

end Byte

namespace Reader

/-- The next byte, which stays in the text. -/
def peek? : Reader (Option UInt8) := fun bs => .ok (bs.head?, bs)

/-- The next byte after blanks; the blanks are dropped and the byte stays. -/
def look? : Reader (Option UInt8) := fun bs =>
  let rest := bs.dropWhile Byte.isBlank
  .ok (rest.head?, rest)

/-- Drops one byte. -/
def advance : Reader Unit := modify List.tail

/-- The next byte, taken off; there has to be one. -/
def next : Reader UInt8 := fun
  | [] => .error .truncated
  | b :: rest => .ok (b, rest)

/-- The longest run of bytes of a class. -/
def run (p : UInt8 → Bool) : Reader Bytes := fun bs => .ok (bs.takeWhile p, bs.dropWhile p)

/-- The fault of a place where something else should stand: the end of the text has
one of its own. -/
def unexpected {α : Type} : Option UInt8 → Reader α
  | none => throw .truncated
  | some _ => throw .malformed

/-- Takes exactly this byte, after blanks. -/
def expect (b : UInt8) : Reader Unit := do
  let found ← look?
  if found = some b then advance else unexpected found

/-- Takes the rest of a word whose first letter was seen. -/
def word : List UInt8 → Reader Unit
  | [] => return ()
  | b :: bs => do
    let found ← next
    if found = b then word bs else throw .malformed

/-- Only blanks may be left. -/
def finish : Reader Unit := do
  match ← look? with
  | none => return ()
  | some _ => throw .malformed

/-- Reads the whole of a text. -/
def all {α : Type} (r : Reader α) (bs : Bytes) : Except Fault α := do
  let (x, _) ← (do let x ← r; finish; return x : Reader α) bs
  return x

end Reader

end AbiCompat
