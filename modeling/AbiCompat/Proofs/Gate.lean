/-
# What a gate lets pass

The gate sees the verdict only, and the verdict has hidden something by then: a break hides
everything else, and a dynamic symbol that is gone hides what was added and what changed
unreferenced.

## What is proved

When exactly a comparison ends with code zero.  A break never passes, so what it hides does no
harm.  A symbol that is gone may pass, and then the additions behind it pass as well: for this case
there is a comparison, of a library that loses a symbol and gets a function, which passes a gate
that does not allow additions.

The kinds of findings are said with no verdict at hand, on the outcome itself (`Outcome.Breaks`,
`Extends`, `ChangesUnreferenced`, `LosesSymbols`), and `Gate.Allows` says which of them a gate
allows.  A verdict is made of such flags, so that the proofs are propositional from there.

## What is not

Which of the other codes a comparison ends with is left to `Gate.exitCode`; and what a finding is
worth is not asked here, only of which kind it is.
-/
import AbiCompat.Cli.Commands
import AbiCompat.Proofs.Walk.Tour

namespace AbiCompat

/-! ## Kinds of findings -/

namespace Outcome

/-- Something that callers use changed or is gone. -/
def Breaks (o : Outcome) : Prop :=
  (∃ f ∈ o.findings, f.reach = .referenced ∧ f.change.isIncompatible = true)
    ∨ ∃ c ∈ o.lone, c.direction = .removed ∧ c.entity.reach = .referenced

/-- Something came that old callers do not need. -/
def Extends (o : Outcome) : Prop :=
  (∃ f ∈ o.findings, f.reach = .referenced ∧ ∃ c, f.change = .enum c ∧ c.isExtension = true)
    ∨ ∃ c ∈ o.lone, c.direction = .added ∧ c.entity.reach = .referenced

/-- Types changed, came or went that nothing exported reaches. -/
def ChangesUnreferenced (o : Outcome) : Prop :=
  (∃ f ∈ o.findings, f.reach = .unreferenced) ∨ ∃ c ∈ o.lone, c.entity.reach = .unreferenced

/-- A dynamic symbol is gone. -/
def LosesSymbols (o : Outcome) : Prop := ∃ s ∈ o.symbols, s.direction = .removed

end Outcome

/-- All that was found is of kinds that a gate lets through. -/
structure Gate.Allows (g : Gate) (o : Outcome) : Prop where
  unbroken : ¬ o.Breaks
  extensions : o.Extends → g.extensions = true
  unreferenced : o.ChangesUnreferenced → g.unreferenced = true
  symbolsGone : o.LosesSymbols → g.symbolsGone = true

/-! ## What the verdict tells of them -/

namespace Outcome

variable {o : Outcome}

theorem breaks_iff : o.Breaks ↔ (o.findings.any Verdict.breaks
    || o.lone.any fun c => c.direction == .removed && c.entity.reach == .referenced) = true := by
  simp [Breaks, Verdict.breaks]

theorem addsValues_iff {f : Finding} : Verdict.addsValues f = true ↔
    f.reach = .referenced ∧ ∃ c, f.change = .enum c ∧ c.isExtension = true := by
  obtain ⟨reach, path, change⟩ := f
  cases change <;> simp [Verdict.addsValues]

theorem extends_iff : o.Extends ↔ (o.findings.any Verdict.addsValues
    || o.lone.any fun c => c.direction == .added && c.entity.reach == .referenced) = true := by
  simp [Extends, addsValues_iff]

theorem changesUnreferenced_iff : o.ChangesUnreferenced ↔
    ((o.findings.any fun f => f.reach == .unreferenced)
      || o.lone.any fun c => c.entity.reach == .unreferenced) = true := by
  simp [ChangesUnreferenced]

theorem losesSymbols_iff :
    o.LosesSymbols ↔ (o.symbols.any fun c => c.direction == .removed) = true := by
  simp [LosesSymbols]

end Outcome

theorem Verdict.bits_eq_zero_iff {v : Verdict} : v.bits = 0 ↔ v.unreferenced = false
    ∧ v.isExtension = false ∧ v.isIncompatible = false ∧ v.symbolsGone = false := by
  obtain ⟨a, b, c, d⟩ := v
  cases a <;> cases b <;> cases c <;> cases d <;> decide

theorem Gate.exitCode_eq_zero {g : Gate} {v : Verdict} : g.exitCode v = 0 ↔
    g.adviceOnly = true ∨ (v.isIncompatible = false
      ∧ (v.symbolsGone = true → g.symbolsGone = true)
      ∧ (v.isExtension = true → g.extensions = true)
      ∧ (v.unreferenced = true → g.unreferenced = true)) := by
  unfold Gate.exitCode
  cases g.adviceOnly with
  | true => simp
  | false =>
      simp only [Bool.false_eq_true, ↓reduceIte, Verdict.bits_eq_zero_iff, Verdict.without, allowed,
        Bool.and_eq_false_imp, Bool.not_eq_eq_eq_not, Bool.not_false, false_or, reduceCtorEq,
        imp_false, Bool.not_eq_true]
      tauto

/-- The flags of a verdict on what was found pass when nothing breaks and the gate allows what
the verdict does not hide. -/
theorem Gate.passes_ofFindings {g : Gate} {o : Outcome} {v : Verdict}
    (made : v = .ofFindings o.findings o.lone o.symbols) :
    (v.isIncompatible = false ∧ (v.symbolsGone = true → g.symbolsGone = true)
      ∧ (v.isExtension = true → g.extensions = true)
      ∧ (v.unreferenced = true → g.unreferenced = true)) ↔
    ¬ o.Breaks ∧ (o.LosesSymbols → g.symbolsGone = true) ∧ (¬ o.LosesSymbols →
      (o.Extends → g.extensions = true) ∧ (o.ChangesUnreferenced → g.unreferenced = true)) := by
  rw [made, Outcome.breaks_iff, Outcome.losesSymbols_iff, Outcome.extends_iff,
    Outcome.changesUnreferenced_iff, Verdict.ofFindings]
  split
  · rename_i broken
    simp [broken]
  · rename_i whole
    split
    · rename_i gone
      simp [whole, gone, Verdict.compatible]
    · rename_i kept
      simp [whole, kept, Verdict.compatible]

namespace Cli

/-! ## What passes -/

/-- A comparison ends with code zero when the verdict is advice only, when all that was found
is allowed, and when nothing breaks, a symbol is gone and that much is allowed: then additions
and changes of unreferenced types pass unasked. -/
theorem Comparison.exitCode_eq_zero_iff (c : Comparison) : c.exitCode = 0 ↔
    c.settings.gate.adviceOnly = true ∨ c.settings.gate.Allows c.outcome
      ∨ (¬ c.outcome.Breaks ∧ c.outcome.LosesSymbols ∧ c.settings.gate.symbolsGone = true) := by
  have made : c.outcome.verdict
      = .ofFindings c.outcome.findings c.outcome.lone c.outcome.symbols := rfl
  rw [Comparison.exitCode, Gate.exitCode_eq_zero, Gate.passes_ofFindings made]
  constructor
  · rintro (advice | ⟨unbroken, symbols, others⟩)
    · exact .inl advice
    · by_cases gone : c.outcome.LosesSymbols
      · exact .inr (.inr ⟨unbroken, gone, symbols gone⟩)
      · obtain ⟨extensions, unreferenced⟩ := others gone
        exact .inr (.inl ⟨unbroken, extensions, unreferenced, symbols⟩)
  · rintro (advice | allows | ⟨unbroken, gone, allowed⟩)
    · exact .inl advice
    · exact .inr ⟨allows.unbroken, allows.symbolsGone,
        fun _ => ⟨allows.extensions, allows.unreferenced⟩⟩
    · exact .inr ⟨unbroken, fun _ => allowed, fun kept => absurd gone kept⟩

/-- A comparison of a library that loses the symbol `helper` and gets the function `f`, behind
a gate that lets through nothing but symbols that are gone. -/
def symbolForFunction : Comparison where
  args := ⟨"old.json", "new.json", "r.json", none, none, none, none, false, false, false,
    ⟨false, false, true, false⟩, false⟩
  settings := ⟨"new", "", .plain, ⟨false, false, true, false⟩⟩
  old := ⟨{ Interface.empty with functionSymbols := .ofList [⟨"helper", .global⟩] }, ""⟩
  new := ⟨{ Interface.empty with
    types := .ofList [⟨"i", "int", "", "int", "", 4, 4, .builtin ⟨false, true⟩⟩]
    functions := .ofList [⟨"f", "", "f", ⟨"i", [], []⟩, .pub⟩] }, ""⟩

/-- The symbol that is gone hides the function that came, and the comparison passes though
additions are not allowed. -/
theorem symbolForFunction_passes : symbolForFunction.settings.gate.adviceOnly = false
    ∧ symbolForFunction.exitCode = 0
    ∧ ¬ symbolForFunction.settings.gate.Allows symbolForFunction.outcome := by
  refine ⟨rfl, by decide, fun allows => ?_⟩
  have came : symbolForFunction.outcome.Extends := Outcome.extends_iff.mpr (by decide)
  exact absurd (allows.extensions came) (by decide)

end Cli

end AbiCompat
