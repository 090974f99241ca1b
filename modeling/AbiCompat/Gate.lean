/-
# The gate: which verdicts pass

A gate lets raised flags of a verdict through, one by one.  What is not let through is the exit
code.  That callers break is no flag that can be let through, except by taking the whole verdict
for advice.

A gate sees the verdict only, not the findings it was made from.
-/
import AbiCompat.Compare.Verdict

namespace AbiCompat

/-- Which raised flags of a verdict are let through. -/
structure Gate where
  extensions : Bool
  unreferenced : Bool
  symbolsGone : Bool
  /-- Everything is let through; the verdict is advice only. -/
  adviceOnly : Bool
deriving DecidableEq

namespace Gate

/-- The gate that lets nothing through. -/
def closed : Gate := ⟨false, false, false, false⟩

/-- The gate that lets through what either gate does. -/
def union (g h : Gate) : Gate :=
  ⟨g.extensions || h.extensions, g.unreferenced || h.unreferenced,
    g.symbolsGone || h.symbolsGone, g.adviceOnly || h.adviceOnly⟩

/-- The flags that are let through.  A break of callers is never among them. -/
def allowed (g : Gate) : Verdict :=
  { unreferenced := g.unreferenced
    isExtension := g.extensions
    isIncompatible := false
    symbolsGone := g.symbolsGone }

/-- The exit code for a verdict: the bits of the flags that are not let through. -/
def exitCode (g : Gate) (v : Verdict) : UInt32 :=
  if g.adviceOnly then 0 else (v.without g.allowed).bits

end Gate

end AbiCompat
