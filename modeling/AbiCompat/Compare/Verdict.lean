/-
# The verdict on a comparison

Four flags, which are also the bits of a number and the names in a report.

The flags are not independent.  Whatever breaks callers hides all else; where nothing does, a
dynamic symbol that is gone hides what was added and what changed out of reach.  So a verdict is
made in that order (`ofFindings`), and what the gate is shown afterwards is what is left.
-/
import AbiCompat.Compare.Finding

namespace AbiCompat

/-- What is to be said about a new version; nothing raised means compatible. -/
structure Verdict where
  /-- Something changed in types that nothing exported reaches. -/
  unreferenced : Bool
  /-- Something was added that old callers do not need. -/
  isExtension : Bool
  /-- Something that callers use changed or is gone. -/
  isIncompatible : Bool
  /-- A dynamic symbol is gone. -/
  symbolsGone : Bool
deriving DecidableEq

namespace Verdict

/-- The verdict with nothing raised. -/
def compatible : Verdict := ⟨false, false, false, false⟩

/-- The bit of a flag, if it is raised. -/
def bit (isRaised : Bool) (value : UInt32) : UInt32 := if isRaised then value else 0

/-- The raised flags as a bit mask. -/
def bits (v : Verdict) : UInt32 :=
  bit v.unreferenced 1 + bit v.isExtension 4 + bit v.isIncompatible 8 + bit v.symbolsGone 16

/-- The names of the raised flags in the order of their bits. -/
def raised (v : Verdict) : List String :=
  (if v.unreferenced then ["UNREFERENCED_CHANGES"] else [])
    ++ (if v.isExtension then ["EXTENSION"] else [])
    ++ (if v.isIncompatible then ["INCOMPATIBLE"] else [])
    ++ (if v.symbolsGone then ["ELF_INCOMPATIBLE"] else [])

/-- Whether nothing is raised. -/
def isCompatible (v : Verdict) : Bool := v == compatible

/-- The names by which the verdict is told. -/
def names (v : Verdict) : List String :=
  if v.isCompatible then ["COMPATIBLE"] else v.raised

/-- The verdict on one line. -/
def text (v : Verdict) : String := String.intercalate " | " v.names

/-- The verdict of a bit mask; nothing if a bit has no meaning. -/
def ofBits? (n : Nat) : Option Verdict :=
  let v : Verdict := ⟨n.testBit 0, n.testBit 2, n.testBit 3, n.testBit 4⟩
  if v.bits.toNat = n then some v else none

theorem ofBits?_eq_some_iff {n : Nat} {v : Verdict} : ofBits? n = some v ↔ v.bits.toNat = n := by
  constructor
  · intro h
    simp only [ofBits?] at h
    split at h
    · cases h
      assumption
    · cases h
  · rintro rfl
    obtain ⟨a, b, c, d⟩ := v
    cases a <;> cases b <;> cases c <;> cases d <;> rfl

/-- The flags that are raised here and not there. -/
def without (v w : Verdict) : Verdict :=
  ⟨v.unreferenced && !w.unreferenced, v.isExtension && !w.isExtension,
    v.isIncompatible && !w.isIncompatible, v.symbolsGone && !w.symbolsGone⟩

/-- Whether a finding breaks callers. -/
def breaks (f : Finding) : Bool := f.reach == .referenced && f.change.isIncompatible

/-- Whether a finding is an enumeration in use that has new values only. -/
def addsValues (f : Finding) : Bool :=
  f.reach == .referenced &&
    match f.change with
    | .enum c => c.isExtension
    | _ => false

/-- The verdict on what was found.  A break hides everything else, and a symbol that is
gone hides everything but a break. -/
def ofFindings (findings : List Finding) (lone : List LoneChange) (symbols : List SymbolChange) :
    Verdict :=
  if findings.any breaks
      || lone.any (fun c => c.direction == .removed && c.entity.reach == .referenced) then
    { compatible with isIncompatible := true }
  else if symbols.any (fun c => c.direction == .removed) then
    { compatible with symbolsGone := true }
  else
    { compatible with
      isExtension := findings.any addsValues
        || lone.any (fun c => c.direction == .added && c.entity.reach == .referenced)
      unreferenced := findings.any (fun f => f.reach == .unreferenced)
        || lone.any (fun c => c.entity.reach == .unreferenced) }

/-- A verdict is incompatible for a finding that breaks callers or an exported name that is
gone. -/
theorem isIncompatible_ofFindings (findings : List Finding) (lone : List LoneChange)
    (symbols : List SymbolChange) : (ofFindings findings lone symbols).isIncompatible
      = (findings.any breaks
        || lone.any (fun c => c.direction == .removed && c.entity.reach == .referenced)) := by
  unfold ofFindings
  split
  · rename_i h
    exact h.symm
  · rename_i h
    rw [Bool.not_eq_true] at h
    rw [h]
    split <;> rfl

theorem symbolsGone_ofFindings {findings : List Finding} {lone : List LoneChange}
    {symbols : List SymbolChange}
    (kept : symbols.any (fun c => c.direction == .removed) = false) :
    (ofFindings findings lone symbols).symbolsGone = false := by
  unfold ofFindings
  rw [kept]
  split <;> rfl

end Verdict

end AbiCompat
