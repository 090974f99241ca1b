/-
# Number literals

A literal without point and exponent is an integer if it fits in 64 bits, and `-0` is not
one.  Every other literal is a double: its leading digits, as many as fit in 64 bits, are scaled by
a power of ten with one multiplication or division.

So the last bit of a double need not be that of the nearest one.  No document has a double where
one is wanted; its value is seen in messages only.
-/
import AbiCompat.Json.Reader

namespace AbiCompat

/-- A literal taken apart; the exponent has its sign in front. -/
structure Numeral where
  isNegative : Bool
  whole : Bytes
  fraction : Bytes
  exponent : Option (Bool × Bytes)
  isInteger : Bool

namespace Numeral

/-- Appends digits to a significand as long as it fits in 64 bits, and says which are left. -/
def absorb : Nat → Bytes → Nat × Bytes
  | s, [] => (s, [])
  | s, d :: ds =>
    let t := s * 10 + Byte.digit d
    if t < UInt64.size then absorb t ds else (s, d :: ds)

/-- The number that digits spell. -/
def natural (ds : Bytes) : Nat := ds.foldl (fun n d => n * 10 + Byte.digit d) 0

/-- A power of ten as a double, for exponents up to 308. -/
def power (e : Nat) : Float := Float.ofScientific 1 false e

/-- The greatest exponent with a power of ten among the doubles. -/
def maxPower : Nat := 308

/-- Divides by a power of ten, in steps if it is not a double. -/
def scaleDown (x : Float) (e : Nat) : Float :=
  if e ≤ maxPower then x / power e
  else if x == 0 then x
  else scaleDown (x / power maxPower) (e - maxPower)
termination_by e
decreasing_by simp only [maxPower] at *; omega

/-- Multiplies by a power of ten, unless the result is too large. -/
def scaleUp? (x : Float) (e : Nat) : Option Float :=
  if e ≤ maxPower then
    let y := x * power e
    if y.isInf then none else some y
  else if x == 0 then some x
  else none

/-- The greatest exponent that is looked at; beyond it only zero is in range. -/
def maxExponent : Nat := Nat.pow 2 31 - 1

/-- The magnitude `significand · 10 ^ exponent` as a double. -/
def magnitude? (significand : Nat) (exponent : Int) : Option Float :=
  let x := (UInt64.ofNat significand).toFloat
  if 0 ≤ exponent then scaleUp? x exponent.toNat else some (scaleDown x (-exponent).toNat)

/-- The double of a literal. -/
def float? (n : Numeral) : Option Float :=
  let (s, beyond) := absorb 0 n.whole
  let (s, rest) := absorb s n.fraction
  let shift : Int := beyond.length - (n.fraction.length - rest.length : Nat)
  let scaled : Option Float :=
    match n.exponent with
    | none => magnitude? s shift
    | some (isDown, ds) =>
      let e := natural ds
      if maxExponent < e then if s ≠ 0 ∧ !isDown then none else some 0
      else magnitude? s (if isDown then shift - e else shift + e)
  scaled.map fun x => if n.isNegative then -x else x

/-- The number of a literal; nothing if it is too large for a double. -/
def value? (n : Numeral) : Option JsonNumber :=
  let (s, beyond) := absorb 0 n.whole
  if n.isInteger && beyond.isEmpty then
    if !n.isNegative then some (.natural (UInt64.ofNat s))
    else if 1 ≤ s ∧ s ≤ Nat.pow 2 63 then some (.negative (Int64.ofInt (-(s : Int))))
    else some (.float (-(UInt64.ofNat s).toFloat))
  else n.float?.map .float

end Numeral

namespace Reader

/-- One digit or more. -/
def digits : Reader Bytes := do
  let ds ← run Byte.isDigit
  if ds.isEmpty then unexpected (← peek?) else return ds

/-- The digits after the point, if there is one. -/
def fraction : Reader (Option Bytes) := do
  if (← peek?) = some Byte.point then
    advance
    return some (← digits)
  else return none

/-- Whether a minus sign stands here; a sign is taken off. -/
def exponentSign : Reader Bool := do
  match ← peek? with
  | some b =>
    if b = Byte.minus then advance; return true
    else if b = Byte.plus then advance; return false
    else return false
  | none => return false

def exponent : Reader (Option (Bool × Bytes)) := do
  let b ← peek?
  if b = some 0x65 ∨ b = some 0x45 then
    advance
    let isDown ← exponentSign
    return some (isDown, ← digits)
  else return none

/-- A number literal, whatever its value. -/
def numeral : Reader Numeral := do
  let isNegative := (← peek?) = some Byte.minus
  if isNegative then advance
  let whole ← digits
  if whole.head? = some 0x30 ∧ whole.length ≠ 1 then throw .malformed
  let fraction ← fraction
  let exponent ← exponent
  return ⟨isNegative, whole, fraction.getD [], exponent, fraction.isNone && exponent.isNone⟩

/-- A number; one that is too large for a double is malformed. -/
def number : Reader JsonNumber := do
  match (← numeral).value? with
  | some n => return n
  | none => throw .malformed

end Reader

end AbiCompat
