/-
# What the note of visited pairs can hide

A pair that comes up again counts as the same, since what it differs in was found at the first
visit.  That is so unless whoever asked first dropped the answer: template arguments are visited
for what they hold only, and so is what stands in for a field that only the new record has.

## What is proved

If the verdict on two versions is not incompatible, then:

    some exported name breaks   ↔   the break comes from where a pair leads to whose
                                    differences are dropped

and there is a library of two functions in which that happens: the type of a parameter changes, the
pair of types was noted as a template argument before, and nothing is found.

## How

Every pair that was noted is accounted for (`Accounted`): it does not differ by itself and all that
it could differ by is noted, or it is behind a pair whose differences are dropped, or a break was
found.  While a pair is being compared there is one more case, that a noted pair is behind it and
the answer says so.  A look keeps this, whatever it answers (`Looks.accounts`), and so does a tour
over the exported names (`accounted_of_tour`).  When the tour is over and no break was found, one
follows a way from a noted pair to where it differs, and comes through what is dropped.

## What is not

That something is dropped somewhere does not mean that it hides a break; the equivalence speaks of
where the break comes from, not of the order in which the pairs were met.
-/
import AbiCompat.Proofs.Walk.Tour

namespace AbiCompat

namespace Scope

/-! ## What exported names are written in -/

/-- The parts of exported declarations. -/
inductive ExportPart (scope : Scope) : Use → String × String → Prop
  | signature {f g : FunctionDecl} {use : Use} {a b : String} : scope.CommonFunction f g →
      f.signature.Part g.signature use a b → ExportPart scope use (a, b)
  | global {f g : GlobalDecl} : scope.CommonGlobal f g →
      ExportPart scope .passedOn (f.typeId, g.typeId)

/-- The pairs that exported declarations are written in. -/
inductive Met (scope : Scope) : String × String → Prop
  | root {use : Use} {p : String × String} : scope.ExportPart use p → Met scope p
  | part {use : Use} {p q : String × String} : Met scope p → scope.Parts use p q → Met scope q

/-- A pair that somewhere is compared with no regard to how it differs. -/
inductive Dropped (scope : Scope) : String × String → Prop
  | root {p : String × String} : scope.ExportPart .dropped p → Dropped scope p
  | part {p q : String × String} : scope.Met p → scope.Parts .dropped p q → Dropped scope q

/-- A caller of some exported name breaks by the types that the name is declared with. -/
inductive BreaksExport (scope : Scope) : Prop
  | function {f g : FunctionDecl} : scope.CommonFunction f g →
      scope.SignaturesDiffer f.signature g.signature → BreaksExport scope
  | global {f g : GlobalDecl} : scope.CommonGlobal f g →
      scope.DirectlyDiffers (f.typeId, g.typeId) → BreaksExport scope

end Scope

/-! ## Accounts of noted pairs -/

/-- Something was found that breaks callers. -/
def Walk.Broken (w : Walk) : Prop := ∃ f ∈ w.findings, Verdict.breaks f = true

theorem Walk.Broken.grows {w w' : Walk} (h : w.Broken) (grows : w.Grows w') : w'.Broken := by
  obtain ⟨f, hf, breaks⟩ := h
  exact ⟨f, grows.findings hf, breaks⟩

theorem Kept.broken {w w' : Walk} {es : List Event} (kept : Kept .referenced w es w')
    {c : Change} (reported : .reported c ∈ es) (breaks : c.isIncompatible = true) :
    w'.Broken := by
  obtain ⟨f, hf, reach, change⟩ := kept.reported reported
  refine ⟨f, hf, ?_⟩
  rw [Verdict.breaks, reach, change, breaks]
  rfl

namespace Scope

variable {scope : Scope} {entries : List Entry} {w w' : Walk} {p q : String × String}

/-- Why a pair may be taken for the same when it comes up again: it does not differ by
itself and all that it could differ by is noted, or it is behind a pair whose differences
are dropped, or a break was found. -/
inductive Accounted (scope : Scope) (w : Walk) (q : String × String) : Prop
  | clean : ¬ scope.DiffersHere q → (∀ {r}, scope.Passes q r → r ∈ w.visited) → Accounted scope w q
  | excused {d : String × String} : scope.Dropped d → scope.Leads d q → Accounted scope w q
  | broken : w.Broken → Accounted scope w q

theorem Accounted.grows (h : scope.Accounted w q) (grows : w.Grows w') :
    scope.Accounted w' q := by
  cases h with
  | clean alike noted => exact .clean alike fun passes => grows.visited (noted passes)
  | excused dropped leads => exact .excused dropped leads
  | broken broken => exact .broken (broken.grows grows)

/-- A noted pair was noted before, is accounted for, or is behind the pair under comparison
and the answer says so. -/
def AccountsVisit (scope : Scope) (w : Walk) (a b : String) (d : Difference) (w' : Walk) :
    Prop :=
  scope.Met (a, b) → ∀ q ∈ w'.visited, q ∈ w.visited ∨ scope.Accounted w' q
    ∨ d.isDirect = true ∧ scope.Leads (a, b) q

/-- The same of events. -/
def AccountsEvents (scope : Scope) (w : Walk) (es : List Event) (w' : Walk) : Prop :=
  (∀ {a b d}, .asked a b d ∈ es → scope.Met (a, b)) → ∀ q ∈ w'.visited, q ∈ w.visited
    ∨ scope.Accounted w' q ∨ ∃ a b, DirectIn es a b ∧ scope.Leads (a, b) q

theorem Looks.accounts {a b : String} {es : List Event} {d : Difference}
    (look : scope.Looks a b es d) (kept : Kept .referenced w es w') :
    scope.Accounted w' (a, b) ∨ d.isDirect = true := by
  cases h : d.isDirect with
  | true => exact .inr rfl
  | false =>
      obtain ⟨alike, all⟩ := look.settled h
      refine .inl (.clean alike ?_)
      intro r passes
      obtain ⟨f, hf⟩ := all passes
      exact kept.asked hf

theorem Looks.accounts_part {a b c e : String} {es : List Event} {d : Difference}
    (look : scope.Looks a b es d) (kept : Kept .referenced w es w') (met : scope.Met (a, b))
    (direct : DirectIn es c e) (leads : scope.Leads (c, e) q) :
    scope.Accounted w' q ∨ d.isDirect = true ∧ scope.Leads (a, b) q := by
  rcases look.used direct with ⟨answer, passes⟩ | dropped | ⟨ch, reported⟩
  · exact .inr ⟨answer, .head passes leads⟩
  · exact .inl (.excused (.part met dropped) leads)
  · exact .inl (.broken (kept.broken reported rfl))

theorem accounts (scope : Scope) :
    scope.Invariant .referenced scope.AccountsVisit scope.AccountsEvents where
  done w _ q h := .inl h
  asked grows kept first rest met q h := by
    rcases rest (fun mem => met (List.mem_cons_of_mem _ mem)) q h with
      before | accounted | ⟨c, e, direct, leads⟩
    · rcases first (met List.mem_cons_self) q before with before | accounted | ⟨direct, leads⟩
      · exact .inl before
      · exact .inr (.inl (accounted.grows kept.grows))
      · exact .inr (.inr ⟨_, _, ⟨_, List.mem_cons_self, direct⟩, leads⟩)
    · exact .inr (.inl accounted)
    · exact .inr (.inr ⟨c, e, direct.mono (List.subset_cons_self _ _), leads⟩)
  reported kept rest met q h := by
    rcases rest (fun mem => met (List.mem_cons_of_mem _ mem)) q h with
      before | accounted | ⟨c, e, direct, leads⟩
    · exact .inl before
    · exact .inr (.inl accounted)
    · exact .inr (.inr ⟨c, e, direct.mono (List.subset_cons_self _ _), leads⟩)
  again _ _ q h := .inl h
  fresh {w a b es d w'} _ look kept events met q h := by
    have parts {c e f} (mem : Event.asked c e f ∈ es) : scope.Met (c, e) := by
      obtain ⟨use, part⟩ := look.asked mem
      exact met.part part
    have left := Walk.Grows.leave w'
    -- what is noted is the pair itself, or behind a part of it, or settled by a part
    rcases events parts q h with before | accounted | ⟨c, e, direct, leads⟩
    · rcases List.mem_cons.mp before with rfl | before
      · rcases look.accounts kept with accounted | direct
        · exact .inr (.inl (accounted.grows left))
        · exact .inr (.inr ⟨direct, .refl⟩)
      · exact .inl before
    · exact .inr (.inl (accounted.grows left))
    · rcases look.accounts_part kept met direct leads with accounted | behind
      · exact .inr (.inl (accounted.grows left))
      · exact .inr (.inr behind)

/-! ## Accounts of exported declarations -/

theorem exportPart_of_part {e : Entry} {use : Use} {a b : String} (listed : e ∈ scope.exports)
    (part : e.Part use a b) : scope.ExportPart use (a, b) := by
  cases part with
  | signature part => exact .signature (commonFunction_of_entry (.inl listed)) part
  | global => exact .global (commonGlobal_of_entry (.inl listed))
  | type => exact absurd listed type_notMem_exports

theorem exportPart_of_asked {e : Entry} {es : List Event} (exported : e ∈ scope.exports)
    (run : e.Run es) {a b : String} {d : Difference} (h : .asked a b d ∈ es) :
    ∃ use, scope.ExportPart use (a, b) := by
  obtain ⟨use, part⟩ := run.asked h
  exact ⟨use, exportPart_of_part exported part⟩

theorem dropped_or_broken {e : Entry} {es : List Event} (exported : e ∈ scope.exports)
    (run : e.Run es) (kept : Kept .referenced w es w') {a b : String} (h : DirectIn es a b) :
    scope.Dropped (a, b) ∨ w'.Broken := by
  rcases run.used h with dropped | ⟨ch, reported, breaks⟩
  · exact .inl (.root (exportPart_of_part exported dropped))
  · exact .inr (kept.broken reported breaks)

/-- Every pair that the exported declarations made the walk note is accounted for. -/
theorem accounted_of_tour (tour : scope.Tour .referenced .start scope.exports w) :
    ∀ q ∈ w.visited, scope.Accounted w q := by
  refine tour.keeps (P := fun w => ∀ q ∈ w.visited, scope.Accounted w q) ?_
    (fun q h => absurd h List.not_mem_nil)
  intro w w₁ names e es exported trace run before q h
  have kept := trace.kept
  obtain ⟨events, -⟩ := scope.accounts.of_trace trace
  have met {a b d} (mem : Event.asked a b d ∈ es) : scope.Met (a, b) := by
    obtain ⟨use, part⟩ := exportPart_of_asked exported run mem
    exact .root part
  rcases events met q h with old | accounted | ⟨a, b, direct, leads⟩
  · exact (before q old).grows (grows_of_trace trace)
  · exact accounted.grows ⟨List.Subset.refl _, List.Subset.refl _⟩
  · rcases dropped_or_broken exported run kept direct with dropped | broken
    · exact .excused dropped leads
    · exact .broken broken

theorem alike_or_broken (tour : scope.Tour .referenced .start entries w) :
    ∀ e ∈ entries, w.Broken ∨ e.Alike ∧ ∀ {use a b}, e.Part use a b → (a, b) ∈ w.visited := by
  refine tour.each (P := fun e w =>
    w.Broken ∨ e.Alike ∧ ∀ {use a b}, e.Part use a b → (a, b) ∈ w.visited) ?_ ?_
  · rintro e w w' (broken | ⟨alike, noted⟩) grows
    · exact .inl (broken.grows grows)
    · exact .inr ⟨alike, fun part => grows.visited (noted part)⟩
  · intro w w₁ names e es _ trace run
    have kept := trace.kept
    by_cases breaks : ∃ ch, .reported ch ∈ es ∧ ch.isIncompatible = true
    · obtain ⟨ch, reported, breaks⟩ := breaks
      exact .inl (kept.broken reported breaks)
    · obtain ⟨alike, all⟩ := run.settled fun {ch} reported =>
        Bool.eq_false_iff.mpr fun h => breaks ⟨ch, reported, h⟩
      refine .inr ⟨alike, fun part => ?_⟩
      obtain ⟨f, asked⟩ := all part
      exact kept.asked asked

/-- From a noted pair to where it differs: the way is noted, unless a pair on it is behind
one whose differences are dropped. -/
theorem shared_of_leads (accounted : ∀ q ∈ w.visited, scope.Accounted w q) (whole : ¬ w.Broken)
    (leads : scope.Leads p q) (noted : p ∈ w.visited) (differs : scope.DiffersHere q) :
    ∃ d, scope.Dropped d ∧ scope.Leads d q := by
  -- a clean pair hands the note on to the next one of the way; any other ends the search
  induction leads using Relation.ReflTransGen.head_induction_on with
  | refl =>
      cases accounted q noted with
      | clean alike => exact absurd differs alike
      | excused dropped leads => exact ⟨_, dropped, leads⟩
      | broken broken => exact absurd broken whole
  | @head p r step rest ih =>
      cases accounted p noted with
      | clean _ all => exact ih (all step)
      | excused dropped leads => exact ⟨_, dropped, leads.trans (.head step rest)⟩
      | broken broken => exact absurd broken whole

theorem shared_of_breaks (tour : scope.Tour .referenced .start scope.exports w)
    (whole : ¬ w.Broken) (breaks : scope.BreaksExport) :
    ∃ p d q, scope.ExportPart .passedOn p ∧ scope.Dropped d ∧ scope.Leads p q ∧ scope.Leads d q
      ∧ scope.DiffersHere q := by
  have settled {e : Entry} (listed : e ∈ scope.exports) :=
    (alike_or_broken tour e listed).resolve_left whole
  have root {p} (part : scope.ExportPart .passedOn p) (noted : p ∈ w.visited)
      (differs : scope.DirectlyDiffers p) : ∃ p d q, scope.ExportPart .passedOn p ∧
        scope.Dropped d ∧ scope.Leads p q ∧ scope.Leads d q ∧ scope.DiffersHere q := by
    obtain ⟨q, leads, here⟩ := directlyDiffers_iff.mp differs
    obtain ⟨d, dropped, leads'⟩ :=
      shared_of_leads (accounted_of_tour tour) whole leads noted here
    exact ⟨p, d, q, part, dropped, leads, leads', here⟩
  cases breaks with
  | @function f g common differ =>
      obtain ⟨⟨-, alike⟩, noted⟩ := settled (mem_exports.mpr (.inl ⟨f, g, common, rfl⟩))
      rcases differ with here | ⟨a, b, part, differs⟩
      · exact absurd here alike
      · exact root (.signature common part) (noted (.signature part)) differs
  | @global f g common differs =>
      obtain ⟨-, noted⟩ := settled (mem_exports.mpr (.inr ⟨f, g, common, rfl⟩))
      exact root (.global common) (noted .global) differs

theorem breaksExport_of_leads (part : scope.ExportPart .passedOn p) (leads : scope.Leads p q)
    (here : scope.DiffersHere q) : scope.BreaksExport := by
  have differs : scope.DirectlyDiffers p := directlyDiffers_iff.mpr ⟨q, leads, here⟩
  cases part with
  | signature common part => exact .function common (.inr ⟨_, _, part, differs⟩)
  | global common => exact .global common differs

end Scope

/-- Where the verdict is not incompatible, some exported name breaks exactly when the break
comes from where a pair leads to whose differences are dropped. -/
theorem breaksExport_iff_of_not_incompatible (old new : Interface) (policy : Policy)
    (accepted : (compare old new policy).verdict.isIncompatible = false) :
    (Scope.mk old new policy).BreaksExport ↔
      ∃ p d q, (Scope.mk old new policy).ExportPart .passedOn p
        ∧ (Scope.mk old new policy).Dropped d ∧ (Scope.mk old new policy).Leads p q
        ∧ (Scope.mk old new policy).Leads d q ∧ (Scope.mk old new policy).DiffersHere q := by
  constructor
  · obtain ⟨w, exported, rest⟩ := (Scope.mk old new policy).walk_tour
    refine Scope.shared_of_breaks exported ?_
    rintro ⟨f, hf, breaks⟩
    rw [isIncompatible_compare_of_breaks (rest.grows.findings hf) breaks] at accepted
    cases accepted
  · rintro ⟨p, d, q, part, -, leads, -, here⟩
    exact Scope.breaksExport_of_leads part leads here

/-- A library with two functions: the type with the given id is the template argument of the
first and the parameter of the second. -/
def argumentThenParameter (id : String) : Interface :=
  { Interface.empty with
    types := .ofList [
      ⟨"i", "int", "", "int", "", 4, 4, .builtin ⟨false, true⟩⟩,
      ⟨"l", "long", "", "long", "", 8, 8, .builtin ⟨false, true⟩⟩]
    functions := .ofList [
      ⟨"f", "", "f", ⟨"i", [], [id]⟩, .pub⟩,
      ⟨"g", "", "g", ⟨"i", [⟨id, false, false⟩], []⟩, .pub⟩] }

theorem argumentThenParameter_breaks :
    (Scope.mk (argumentThenParameter "i") (argumentThenParameter "l") .plain).BreaksExport := by
  refine .function (f := ⟨"g", "", "g", ⟨"i", [⟨"i", false, false⟩], []⟩, .pub⟩)
    (g := ⟨"g", "", "g", ⟨"i", [⟨"l", false, false⟩], []⟩, .pub⟩) ⟨?_, ?_, ?_⟩ (.inr ?_)
  · decide
  · decide
  · decide
  · refine ⟨"i", "l", .param (p := ⟨"i", false, false⟩) (q := ⟨"l", false, false⟩)
      (List.mem_singleton_self _), .here (.types ⟨rfl, rfl, rfl⟩ ?_)⟩
    exact .builtin rfl rfl (.inl (by decide))

/-- The walk meets the two types as a template argument first, and nothing is found. -/
theorem compatible_though_parameter_differs :
    (compare (argumentThenParameter "i") (argumentThenParameter "l") .plain).verdict = .compatible
      ∧ (Scope.mk (argumentThenParameter "i") (argumentThenParameter "l") .plain).BreaksExport :=
  ⟨by decide, argumentThenParameter_breaks⟩

/-- There the template argument leads to where the parameter differs. -/
theorem argumentThenParameter_shared :
    (compare (argumentThenParameter "i") (argumentThenParameter "l")
        .plain).verdict.isIncompatible = false
      ∧ ∃ p d q, (Scope.mk (argumentThenParameter "i") (argumentThenParameter "l")
            .plain).ExportPart .passedOn p
        ∧ (Scope.mk (argumentThenParameter "i") (argumentThenParameter "l") .plain).Dropped d
        ∧ (Scope.mk (argumentThenParameter "i") (argumentThenParameter "l") .plain).Leads p q
        ∧ (Scope.mk (argumentThenParameter "i") (argumentThenParameter "l") .plain).Leads d q
        ∧ (Scope.mk (argumentThenParameter "i") (argumentThenParameter "l")
            .plain).DiffersHere q := by
  have accepted : (compare (argumentThenParameter "i") (argumentThenParameter "l")
      .plain).verdict.isIncompatible = false := by decide
  exact ⟨accepted,
    (breaksExport_iff_of_not_incompatible _ _ _ accepted).mp argumentThenParameter_breaks⟩

end AbiCompat
