/-
# The text of a double

The fewest decimal digits that read back as the same double, the nearest such number, an exact tie
going to the even digit.

Such texts come up in one place, in messages about a number that stands where something else is
expected.  The digits are found in integers: the numbers that round to a double are an interval
with known ends, and of the grids of multiples of a power of ten the widest one that has a point in
it is taken.
-/

namespace AbiCompat.FloatText

/-- A positive double as `mantissa · 2 ^ exponent`, from its bits. -/
structure Binary where
  mantissa : Nat
  exponent : Int

/-- The parts of the magnitude of a finite double. -/
def Binary.ofBits (bits : UInt64) : Binary :=
  let fraction := (bits &&& 0xfffffffffffff).toNat
  let biased := ((bits >>> 52) &&& 0x7ff).toNat
  if biased = 0 then ⟨fraction, -1074⟩ else ⟨fraction + Nat.pow 2 52, (biased : Int) - 1075⟩

/-- A decimal number `digits · 10 ^ exponent`. -/
structure Decimal where
  digits : Nat
  exponent : Int

/-- Twice-scaled bounds of the numbers that round to a double, over a common denominator. -/
structure Interval where
  low : Nat
  value : Nat
  high : Nat
  scale : Nat
  inclusive : Bool

/-- The numbers that round to the double; both ends belong to it when the mantissa is even. -/
def Binary.interval (b : Binary) : Interval :=
  let lowGap := if b.mantissa = Nat.pow 2 52 ∧ b.exponent > -1074 then 1 else 2
  let up := Nat.pow 2 (b.exponent - 2).toNat
  let down := Nat.pow 2 (2 - b.exponent).toNat
  ⟨(4 * b.mantissa - lowGap) * up, 4 * b.mantissa * up, (4 * b.mantissa + 2) * up, down,
    b.mantissa % 2 = 0⟩

/-- Whether `n · 10 ^ k` lies in the interval. -/
def Interval.holds (i : Interval) (n : Nat) (k : Int) : Bool :=
  let x := n * Nat.pow 10 k.toNat * i.scale
  let unit := Nat.pow 10 (-k).toNat
  if i.inclusive then i.low * unit ≤ x && x ≤ i.high * unit
  else i.low * unit < x && x < i.high * unit

/-- The point of the grid of multiples of `10 ^ k` next to the value that lies in the
interval: the nearer of the two neighbours, and of two equally near ones the even one. -/
def Interval.nearest? (i : Interval) (k : Int) : Option Nat :=
  let num := i.value * Nat.pow 10 (-k).toNat
  let den := i.scale * Nat.pow 10 k.toNat
  let below := num / den
  let twice := 2 * (num % den)
  let downFirst := twice < den || (twice == den && below % 2 == 0)
  let order := if downFirst then [below, below + 1] else [below + 1, below]
  order.find? (fun n => i.holds n k)

/-- The least `k` with `value < 10 ^ (k + 1)`, looked for upwards from a bound below it. -/
def Interval.magnitude (i : Interval) : Int :=
  let below (k : Int) : Bool :=
    i.value * Nat.pow 10 (-k).toNat < i.scale * Nat.pow 10 k.toNat
  match (List.range 640).find? (fun n : Nat => below (Int.ofNat n - 323)) with
  | some n => Int.ofNat n - 324
  | none => 309

/-- Drops the zeros at the end of the digits. -/
def Decimal.trim : Nat → Decimal → Decimal
  | 0, d => d
  | fuel + 1, d =>
    if d.digits % 10 = 0 ∧ d.digits ≠ 0 then Decimal.trim fuel ⟨d.digits / 10, d.exponent + 1⟩
    else d

/-- The shortest decimal in the interval of a double. -/
def Binary.shortest (b : Binary) : Decimal :=
  let i := b.interval
  let top := i.magnitude
  let found := (List.range 18).findSome? fun n : Nat =>
    (i.nearest? (top - Int.ofNat n)).map fun digits => (⟨digits, top - Int.ofNat n⟩ : Decimal)
  Decimal.trim 20 (found.getD ⟨0, 0⟩)

/-- How decimals are written: numbers whose leading digit stands for `10 ^ k` are
positional for `low ≤ k ≤ high` and have an exponent otherwise. -/
structure Layout where
  low : Int
  high : Int

/-- The layout of messages about JSON numbers. -/
def layout : Layout := ⟨-5, 15⟩

/-- The text of a positive decimal. -/
def Layout.write (l : Layout) (d : Decimal) : String :=
  let digits := toString d.digits
  let count := digits.length
  let lead := d.exponent + count - 1
  if lead < l.low ∨ l.high < lead then
    let fraction := digits.toList.drop 1
    let point := if fraction.isEmpty then [] else '.' :: fraction
    let sign := if lead < 0 then "e-" else "e+"
    String.ofList (digits.toList.take 1 ++ point) ++ sign ++ toString lead.natAbs
  else if 0 ≤ d.exponent then
    digits ++ String.ofList (List.replicate d.exponent.toNat '0') ++ ".0"
  else if 0 ≤ lead then
    String.ofList (digits.toList.take (lead + 1).toNat) ++ "."
      ++ String.ofList (digits.toList.drop (lead + 1).toNat)
  else
    "0." ++ String.ofList (List.replicate (-lead - 1).toNat '0') ++ digits

/-- The text of a finite double, with at least one decimal place in positional form. -/
def shortest (x : Float) : String :=
  let bits := x.toBits
  let sign := if bits >>> 63 = 1 then "-" else ""
  let magnitude := Binary.ofBits (bits &&& 0x7fffffffffffffff)
  if magnitude.mantissa = 0 then sign ++ "0.0" else sign ++ layout.write magnitude.shortest

end AbiCompat.FloatText
