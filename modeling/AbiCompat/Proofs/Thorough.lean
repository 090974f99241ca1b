/-
# Walks that let nothing go are thorough

Declarations are compared one after the other on one walk, in any order.  A look may end early, at
the first direct difference of a part, and what it has not asked for is not looked at.  So a walk
is thorough, in that it looks at all pairs that the declarations lead to, as long as no direct
difference comes up.

## What is proved

A difference that comes up is the answer of the whole, so it goes on to a finding that breaks
callers, or it is dropped on the way.  Hence there are three ends to a walk:

1. a break was found,
2. a difference was met and swallowed, or
3. every pair was looked at and cleared, and then no pair that the declarations lead to differs
   directly (`not_directlyDiffers_of_ledTo`).

## Use

This is the lower bound on what a walk finds; the upper one is that it answers and finds only what
is justified.  Between the two stands all that is proved about verdicts: what exported names break
by, more lenient policies, and the order of comparisons.

`Thorough` is a relation between two states of a walk.  It is reflexive and transitive, so that
events can be put together, and a look adds one step to it, for its own pair.
-/
import AbiCompat.Proofs.Hidden

namespace AbiCompat

/-! ## Quiet looks

A quiet look has not ended early, so it asks for all parts.  What a quiet comparison of two records
has found are fields and bases that are the same to a caller. -/

/-- No direct answer was given or got, and nothing was reported that breaks callers. -/
structure Quiet (es : List Event) (d : Difference) : Prop where
  answer : d.isDirect = false
  parts : ∀ a b, ¬ DirectIn es a b
  reported : ∀ {ch}, .reported ch ∈ es → ch.isIncompatible = false

section Looks

variable {s t : TypeDecl} {a b : RecordLayout} {es : List Event} {d : Difference} {use : Use}
  {c e : String}

theorem RecordRun.of_quiet (run : RecordRun s t a b es d) (quiet : Quiet es d) :
    ∃ v r args fes bes aes, FieldsRun a.fields b.fields v fes r
      ∧ BasesRun a.bases b.bases bes true ∧ ArgumentsRun a.templateArgs b.templateArgs aes args
      ∧ recordBreaks s t a b r false = false ∧ fes ⊆ es ∧ bes ⊆ es ∧ aes ⊆ es := by
  obtain @⟨v, r, agree, args, fes, bes, aes, fields, bases, arguments⟩ := run
  have whole : recordBreaks s t a b r (!agree) = false := by
    refine Bool.eq_false_iff.mpr ?_
    intro breaks
    have silent := quiet.reported (List.mem_append_right _ (List.mem_append_right _
      (List.mem_append_left _ (mem_reportOf.mpr ⟨breaks, rfl⟩))))
    cases silent
  have same : agree = true := by
    cases agree with
    | true => rfl
    | false => simp [recordBreaks] at whole
  subst same
  refine ⟨v, r, args, fes, bes, aes, fields, bases, arguments, whole, ?_, ?_, ?_⟩
  · exact List.subset_append_left _ _
  · exact List.Subset.trans (List.subset_append_left _ _) (List.subset_append_right _ _)
  · exact List.Subset.trans (List.subset_append_right _ _)
      (List.Subset.trans (List.subset_append_right _ _) (List.subset_append_right _ _))

theorem RecordRun.all_asked (run : RecordRun s t a b es d) (quiet : Quiet es d)
    (part : a.Part b use c e) : ∃ f, .asked c e f ∈ es := by
  obtain ⟨v, r, args, fes, bes, aes, fields, bases, arguments, -, hf, hb, ha⟩ :=
    run.of_quiet quiet
  cases part with
  | field judged => exact ⟨_, hf (fields.judged judged)⟩
  | base length mem =>
      rcases bases with ⟨-, run⟩ | ⟨other, -, -⟩
      · obtain ⟨-, f, asked⟩ := (run.agree rfl).2 _ _ mem
        exact ⟨f, hb asked⟩
      · exact absurd length other
  | argument length mem =>
      rcases arguments with ⟨-, run⟩ | ⟨other, -, -⟩
      · obtain ⟨f, asked⟩ := run.complete mem
        exact ⟨f, ha asked⟩
      · exact absurd length other

theorem TypeDecl.Part.of_record {x y : RecordLayout} (part : s.Part t use c e)
    (hs : s.shape = .record x) (ht : t.shape = .record y) : x.Part y use c e := by
  cases part with
  | target _ target =>
      rw [TypeDecl.kind_of_shape hs] at target
      cases target
  | signature hs' => cases hs.symm.trans hs'
  | layout hs' ht' part =>
      cases hs.symm.trans hs'
      cases ht.symm.trans ht'
      exact part

theorem TypeDecl.Part.of_function {x y : Signature} (part : s.Part t use c e)
    (hs : s.shape = .function x) (ht : t.shape = .function y) : x.Part y use c e := by
  cases part with
  | target _ target =>
      rw [TypeDecl.kind_of_shape hs] at target
      cases target
  | layout hs' => cases hs.symm.trans hs'
  | signature hs' ht' part =>
      cases hs.symm.trans hs'
      cases ht.symm.trans ht'
      exact part

theorem TypeDecl.not_part {x : Shape} (hs : s.shape = x)
    (kind : x.kind = .builtin ∨ x.kind = .enum) : ¬ s.Part t use c e := by
  rintro (⟨-, target⟩ | ⟨hs', -, -⟩ | ⟨hs', -, -⟩)
  · rw [TypeDecl.kind_of_shape hs] at target
    rcases kind with kind | kind <;> rw [kind] at target <;> cases target
  · cases hs.symm.trans hs'
    rcases kind with kind | kind <;> cases kind
  · cases hs.symm.trans hs'
    rcases kind with kind | kind <;> cases kind

theorem Scope.not_parts_of_builtin {scope : Scope} {p q : String × String}
    (builtin : ∀ t ∈ scope.old.types.items, t.kind = .builtin) : ¬ scope.Parts use p q := by
  rintro ⟨s, t, resolves, part⟩
  have kind : s.shape.kind = .builtin := builtin s (Catalog.mem_of_find? resolves.old)
  exact TypeDecl.not_part rfl (.inl kind) part

theorem Scope.TypesRun.all_asked {scope : Scope} (run : scope.TypesRun s t es d)
    (quiet : Quiet es d) (part : s.Part t use c e) : ∃ f, .asked c e f ∈ es := by
  cases run with
  | differ => cases quiet.answer
  | builtin hs => exact absurd part (TypeDecl.not_part hs (.inl rfl))
  | enum hs => exact absurd part (TypeDecl.not_part hs (.inr rfl))
  | target kind target =>
      cases part with
      | target => exact ⟨d, List.mem_singleton_self _⟩
      | signature hs | layout hs =>
          rw [TypeDecl.kind_of_shape hs] at target
          cases target
  | record hs ht _ run => exact run.all_asked quiet (part.of_record hs ht)
  | function hs ht run => exact run.all_asked quiet.answer (part.of_function hs ht)

theorem Scope.Looks.all_asked {scope : Scope} {i j : String} {q : String × String}
    (look : scope.Looks i j es d) (quiet : Quiet es d) (part : scope.Parts use (i, j) q) :
    ∃ f, .asked q.1 q.2 f ∈ es := by
  obtain ⟨s, t, resolves, part⟩ := part
  exact (look.typesRun resolves).all_asked quiet part

end Looks

namespace Scope

/-! ## What declarations lead to -/

/-- The pairs that declarations lead to. -/
inductive LedTo (scope : Scope) (entries : List Entry) : String × String → Prop
  | root {e : Entry} {use : Use} {a b : String} : e ∈ entries → e.Part use a b →
      LedTo scope entries (a, b)
  | part {use : Use} {p q : String × String} : LedTo scope entries p → scope.Parts use p q →
      LedTo scope entries q

/-- A pair that declarations lead to and that is compared with no regard to how it differs. -/
inductive DroppedFrom (scope : Scope) (entries : List Entry) : String × String → Prop
  | root {e : Entry} {a b : String} : e ∈ entries → e.Part .dropped a b →
      DroppedFrom scope entries (a, b)
  | part {p q : String × String} : scope.LedTo entries p → scope.Parts .dropped p q →
      DroppedFrom scope entries q

variable {scope : Scope} {entries entries' : List Entry} {w w₁ w' : Walk} {p q : String × String}

theorem LedTo.mono (h : scope.LedTo entries p) (sub : entries ⊆ entries') :
    scope.LedTo entries' p := by
  induction h with
  | root mem part => exact .root (sub mem) part
  | part _ part ih => exact .part ih part

theorem DroppedFrom.mono (h : scope.DroppedFrom entries p) (sub : entries ⊆ entries') :
    scope.DroppedFrom entries' p := by
  cases h with
  | root mem part => exact .root (sub mem) part
  | part led part => exact .part (led.mono sub) part

theorem DroppedFrom.ledTo (h : scope.DroppedFrom entries p) : scope.LedTo entries p := by
  cases h with
  | root mem part => exact .root mem part
  | part led part => exact .part led part

theorem LedTo.leads (h : scope.LedTo entries p) (leads : scope.Leads p q) :
    scope.LedTo entries q := by
  induction leads with
  | refl => exact h
  | tail _ passes ih => exact .part ih passes

/-! ## The three ends of a walk -/

/-- A look at the pair was quiet, and what it asked for is noted. -/
inductive Cleared (scope : Scope) (w : Walk) (p : String × String) : Prop
  | mk {es : List Event} {d : Difference} : scope.Looks p.1 p.2 es d → Quiet es d →
      (∀ {a b f}, .asked a b f ∈ es → (a, b) ∈ w.visited) → Cleared scope w p

/-- What the pair differs by is noted. -/
def SourceNoted (scope : Scope) (w : Walk) (p : String × String) : Prop :=
  ∃ q ∈ w.visited, scope.Leads p q ∧ scope.DiffersHere q

/-- Something was met that differs, on a way from a pair whose differences are dropped. -/
def Swallowed (scope : Scope) (entries : List Entry) (w : Walk) : Prop :=
  ∃ d, scope.DroppedFrom entries d ∧ scope.SourceNoted w d

/-- Between the two states a break was found, or a difference was swallowed, or all that was
noted was cleared. -/
inductive Thorough (scope : Scope) (entries : List Entry) (w w' : Walk) : Prop
  | broken : w'.Broken → Thorough scope entries w w'
  | swallowed : scope.Swallowed entries w' → Thorough scope entries w w'
  | cleared : (∀ q ∈ w'.visited, q ∈ w.visited ∨ scope.Cleared w' q) → Thorough scope entries w w'

theorem Cleared.grows (h : scope.Cleared w p) (grows : w.Grows w') : scope.Cleared w' p := by
  obtain ⟨look, quiet, asked⟩ := h
  exact ⟨look, quiet, fun mem => grows.visited (asked mem)⟩

theorem SourceNoted.grows (h : scope.SourceNoted w p) (grows : w.Grows w') :
    scope.SourceNoted w' p := by
  obtain ⟨q, noted, leads, differs⟩ := h
  exact ⟨q, grows.visited noted, leads, differs⟩

theorem Swallowed.grows (h : scope.Swallowed entries w) (grows : w.Grows w') :
    scope.Swallowed entries w' := by
  obtain ⟨d, dropped, source⟩ := h
  exact ⟨d, dropped, source.grows grows⟩

theorem Thorough.refl (w : Walk) : scope.Thorough entries w w := .cleared fun _ h => .inl h

theorem Thorough.trans (h : scope.Thorough entries w w₁) (h' : scope.Thorough entries w₁ w')
    (grows : w₁.Grows w') : scope.Thorough entries w w' := by
  cases h' with
  | broken broken => exact .broken broken
  | swallowed swallowed => exact .swallowed swallowed
  | cleared later =>
      cases h with
      | broken broken => exact .broken (broken.grows grows)
      | swallowed swallowed => exact .swallowed (swallowed.grows grows)
      | cleared earlier =>
          refine .cleared fun q noted => ?_
          rcases later q noted with before | cleared
          · exact (earlier q before).imp_right fun cleared => cleared.grows grows
          · exact .inr cleared

theorem Thorough.resetStack (h : scope.Thorough entries w w') (names : List String) :
    scope.Thorough entries w (w'.resetStack names) := by
  have grows : w'.Grows (w'.resetStack names) := ⟨List.Subset.refl _, List.Subset.refl _⟩
  exact h.trans (.cleared fun _ h => .inl h) grows

theorem Thorough.leave {name : String} (h : scope.Thorough entries (w.enter p name) w')
    (here : scope.Cleared w' p) : scope.Thorough entries w w'.leave := by
  have left := Walk.Grows.leave w'
  cases h with
  | broken broken => exact .broken (broken.grows left)
  | swallowed swallowed => exact .swallowed (swallowed.grows left)
  | cleared all =>
      refine .cleared fun q noted => ?_
      rcases all q noted with before | cleared
      · rcases List.mem_cons.mp before with rfl | before
        · exact .inr (here.grows left)
        · exact .inl before
      · exact .inr (cleared.grows left)

/-- A direct answer has its source among what is noted, and without one the comparison was
thorough. -/
def ThoroughVisit (scope : Scope) (entries : List Entry) (w : Walk) (a b : String)
    (d : Difference) (w' : Walk) : Prop :=
  scope.LedTo entries (a, b) → (d.isDirect = true → scope.SourceNoted w' (a, b))
    ∧ (d.isDirect = true ∨ scope.Thorough entries w w')

/-- The same of events. -/
def ThoroughEvents (scope : Scope) (entries : List Entry) (w : Walk) (es : List Event)
    (w' : Walk) : Prop :=
  (∀ {a b d}, .asked a b d ∈ es → scope.LedTo entries (a, b)) →
    (∀ {a b}, DirectIn es a b → scope.SourceNoted w' (a, b))
    ∧ ((∃ a b, DirectIn es a b) ∨ scope.Thorough entries w w')

/-- A direct difference of a part is swallowed or found, unless it is the answer. -/
theorem Looks.swallowed_or_broken {a b c e : String} {es : List Event} {d : Difference}
    (look : scope.Looks a b es d) (kept : Kept .referenced w es w')
    (led : scope.LedTo entries (a, b)) (answer : d.isDirect = false) (direct : DirectIn es c e)
    (source : scope.SourceNoted w' (c, e)) : scope.Swallowed entries w' ∨ w'.Broken := by
  rcases look.used direct with ⟨given, -⟩ | dropped | ⟨ch, reported⟩
  · rw [answer] at given
    cases given
  · exact .inl ⟨_, .part led dropped, source⟩
  · exact .inr (kept.broken reported rfl)

/-- A look without a direct answer given or got clears its pair, or it finds a break. -/
theorem Looks.cleared_or_broken {a b : String} {es : List Event} {d : Difference}
    (look : scope.Looks a b es d) (kept : Kept .referenced w es w') (answer : d.isDirect = false)
    (parts : ∀ c e, ¬ DirectIn es c e) : scope.Cleared w' (a, b) ∨ w'.Broken := by
  by_cases breaks : ∃ ch, .reported ch ∈ es ∧ ch.isIncompatible = true
  · obtain ⟨ch, reported, breaks⟩ := breaks
    exact .inr (kept.broken reported breaks)
  · refine .inl ⟨look, ⟨answer, parts, ?_⟩, kept.asked⟩
    intro ch reported
    exact Bool.eq_false_iff.mpr fun h => breaks ⟨ch, reported, h⟩

theorem thorough (scope : Scope) (entries : List Entry) : scope.Invariant .referenced
    (scope.ThoroughVisit entries) (scope.ThoroughEvents entries) where
  done w _ := ⟨fun h => absurd h not_directIn_nil, .inr (.refl w)⟩
  asked {w a b d w₁ es w'} grows kept first rest led := by
    obtain ⟨source, outcome⟩ := first (led List.mem_cons_self)
    obtain ⟨sources, outcomes⟩ := rest fun mem => led (List.mem_cons_of_mem _ mem)
    constructor
    · intro c e h
      rcases directIn_cons_asked h with ⟨same, direct⟩ | h
      · cases same
        exact (source direct).grows kept.grows
      · exact sources h
    · rcases outcome with direct | thorough
      · exact .inl ⟨a, b, d, List.mem_cons_self, direct⟩
      · rcases outcomes with ⟨c, e, direct⟩ | thorough'
        · exact .inl ⟨c, e, direct.mono (List.subset_cons_self _ _)⟩
        · exact .inr (thorough.trans thorough' kept.grows)
  reported {w ch es w'} kept rest led := by
    obtain ⟨sources, outcomes⟩ := rest fun mem => led (List.mem_cons_of_mem _ mem)
    refine ⟨fun h => sources (directIn_cons_reported h), ?_⟩
    rcases outcomes with ⟨c, e, direct⟩ | thorough
    · exact .inl ⟨c, e, direct.mono (List.subset_cons_self _ _)⟩
    · have report : scope.Thorough entries w (w.report .referenced ch) := .cleared fun _ h => .inl h
      exact .inr (report.trans thorough kept.grows)
  again {w a b} _ _ := ⟨nofun, .inr (.refl w)⟩
  fresh {w a b es d w'} _ look kept events led := by
    have parts {c e f} (mem : Event.asked c e f ∈ es) : scope.LedTo entries (c, e) := by
      obtain ⟨use, part⟩ := look.asked mem
      exact led.part part
    obtain ⟨sources, outcome⟩ := events parts
    have left := Walk.Grows.leave w'
    constructor
    · intro direct
      rcases look.direct direct with differs | ⟨q, passes, direct⟩
      · exact ⟨(a, b), kept.grows.visited List.mem_cons_self, .refl, differs⟩
      · obtain ⟨r, noted, leads, differs⟩ := sources direct
        exact ⟨r, noted, .head passes leads, differs⟩
    · cases answer : d.isDirect with
      | true => exact .inl rfl
      | false =>
          refine .inr ?_
          -- the answer is silent on what the parts differ by, so the look has let go of it
          by_cases direct : ∃ c e, DirectIn es c e
          · obtain ⟨c, e, direct⟩ := direct
            rcases look.swallowed_or_broken kept led answer direct (sources direct) with
              swallowed | broken
            · exact .swallowed (swallowed.grows left)
            · exact .broken (broken.grows left)
          · rcases outcome with found | thorough
            · exact absurd found direct
            rcases look.cleared_or_broken kept answer fun c e h => direct ⟨c, e, h⟩ with
              here | broken
            · exact thorough.leave here
            · exact .broken (broken.grows left)

/-! ## Whole walks -/

/-- What is left to clear after some comparisons: nothing, unless they found a break or
swallowed a difference. -/
theorem thorough_of_tour (tour : scope.Tour .referenced .start entries w) :
    scope.Thorough entries .start w := by
  refine tour.keeps (P := fun w => scope.Thorough entries .start w) ?_ (.refl .start)
  intro w w₁ names e es listed trace run before
  obtain ⟨events, kept⟩ := (scope.thorough entries).of_trace trace
  have led {a b d} (mem : Event.asked a b d ∈ es) : scope.LedTo entries (a, b) := by
    obtain ⟨use, part⟩ := run.asked mem
    exact .root listed part
  obtain ⟨sources, outcome⟩ := events led
  have left : w₁.Grows (w₁.resetStack []) := ⟨List.Subset.refl _, List.Subset.refl _⟩
  rcases outcome with ⟨a, b, direct⟩ | thorough
  · rcases run.used direct with dropped | ⟨ch, reported, breaks⟩
    · exact .swallowed (Swallowed.grows ⟨_, .root listed dropped, sources direct⟩ left)
    · exact .broken ((kept.broken reported breaks).grows left)
  · exact ((before.resetStack names).trans thorough kept.grows).resetStack []

/-- A walk that neither finds a break nor swallows a difference clears every pair that the
declarations lead to. -/
theorem cleared_of_ledTo (tour : scope.Tour .referenced .start entries w) (whole : ¬ w.Broken)
    (heeded : ¬ scope.Swallowed entries w) (led : scope.LedTo entries p) :
    p ∈ w.visited ∧ scope.Cleared w p := by
  have cleared (q : String × String) (noted : q ∈ w.visited) : scope.Cleared w q := by
    cases thorough_of_tour tour with
    | broken broken => exact absurd broken whole
    | swallowed swallowed => exact absurd swallowed heeded
    | cleared all => exact (all q noted).resolve_left List.not_mem_nil
  induction led with
  | root mem part =>
      obtain ⟨-, noted⟩ := (alike_or_broken tour _ mem).resolve_left whole
      exact ⟨noted part, cleared _ (noted part)⟩
  | part _ part ih =>
      obtain ⟨look, quiet, asked⟩ := ih.2
      obtain ⟨f, mem⟩ := look.all_asked quiet part
      exact ⟨asked mem, cleared _ (asked mem)⟩

theorem not_directlyDiffers_of_ledTo (tour : scope.Tour .referenced .start entries w)
    (whole : ¬ w.Broken) (heeded : ¬ scope.Swallowed entries w) (led : scope.LedTo entries p) :
    ¬ scope.DirectlyDiffers p := by
  rw [directlyDiffers_iff]
  rintro ⟨q, leads, differs⟩
  obtain ⟨-, look, quiet, -⟩ := cleared_of_ledTo tour whole heeded (led.leads leads)
  exact (look.settled quiet.answer).1 differs

end Scope

end AbiCompat
