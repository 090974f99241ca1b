/-
# A walk finds a break when there is one

`Scope.Breaks` says of a set of declarations that some caller breaks: by the declarations
themselves, or by two types that they lead to.  It speaks of the two interfaces only, and of a set,
so that neither the cache nor the order of the comparison has a part in it.

## What is proved

For a tour over `entries` that starts with nothing noted, in terms of what is noted at its end:

    w.Broken → scope.Breaks entries                              -- nothing is invented
    scope.Breaks entries → w.Broken ∨ something is swallowed     -- nothing else is missed
    (no difference is dropped) → (w.Broken ↔ scope.Breaks entries)

The first half goes through `Bounds`, like the justification of single findings.  The second half
is the longer one.  Suppose that a tour is not broken.  Then every look it took was quiet, a quiet
look at two records means that none of the pairs of fields it judged differs by itself, and so on
down to the pairs that the declarations lead to; a pair that differs must have been asked for
somewhere, and the only places whose answer leaves no trace are those of `Use.dropped`.

## What is swallowed

The answers for template arguments, and for fields that are new, are thrown away.  If such an
answer was direct, the pair is noted all the same, and whoever asks for it later is told that
nothing is the matter.  That is the one way in which a break goes unfound, and why the last
statement has a hypothesis.  Without it the equivalence is false.
-/
import AbiCompat.Proofs.Justified
import AbiCompat.Proofs.Thorough

namespace AbiCompat

namespace Scope

/-! ## Breaks -/

/-- Two layouts of which the new one cannot stand for the old one. -/
def LayoutBreaks (scope : Scope) (s t : TypeDecl) (a b : RecordLayout) : Prop :=
  s.size ≠ t.size ∨ s.alignment ≠ t.alignment
    ∨ a.vtable.map Slot.seen ≠ b.vtable.map Slot.seen
    ∨ a.access.downgradedTo b.access = true
    ∨ scope.BasesDiffer a.bases b.bases
    ∨ (∃ p q, scope.FieldChanged a.fields b.fields p q)
    ∨ ∃ p, scope.FieldRemoved a.fields b.fields p

/-- A value of the old enumeration is gone or different, or the values are stored in a type of
another name. -/
def ValuesBreak (scope : Scope) (a b : EnumLayout) : Prop :=
  (∃ name value, a.valueOf? name = some value ∧ b.valueOf? name ≠ some value)
    ∨ scope.old.typeName a.underlying ≠ scope.new.typeName b.underlying

/-- The types of the pair break whoever is in touch with them. -/
inductive TypesBreak (scope : Scope) (p : String × String) : Prop
  | record {s t : TypeDecl} {a b : RecordLayout} : scope.Resolves p.1 p.2 s t →
      s.shape = .record a → t.shape = .record b → comparable s t a b →
      scope.LayoutBreaks s t a b → TypesBreak scope p
  | enum {s t : TypeDecl} {a b : EnumLayout} : scope.Resolves p.1 p.2 s t →
      s.shape = .enum a → t.shape = .enum b → s.linkKey = t.linkKey →
      scope.ValuesBreak a b → TypesBreak scope p

/-- A caller of some declaration breaks. -/
inductive Breaks (scope : Scope) (entries : List Entry) : Prop
  | function {f g : FunctionDecl} : .function f g ∈ entries →
      f.access ≠ g.access ∨ scope.SignaturesDiffer f.signature g.signature → Breaks scope entries
  | global {f g : GlobalDecl} : .global f g ∈ entries →
      f.access ≠ g.access ∨ scope.DirectlyDiffers (f.typeId, g.typeId) → Breaks scope entries
  | types {p : String × String} : scope.LedTo entries p → scope.TypesBreak p →
      Breaks scope entries

variable {scope : Scope} {entries entries' : List Entry}

theorem Breaks.mono (h : scope.Breaks entries) (sub : entries ⊆ entries') :
    scope.Breaks entries' := by
  cases h with
  | function mem differ => exact .function (sub mem) differ
  | global mem differ => exact .global (sub mem) differ
  | types led breaks => exact .types (led.mono sub) breaks

theorem enumChange_isIncompatible_iff {s t : TypeDecl} {a b : EnumLayout} :
    (scope.enumChange s t a b).isIncompatible = true ↔ scope.ValuesBreak a b := by
  rw [EnumChange.isIncompatible, Bool.or_eq_true, Bool.or_eq_true, Bool.not_eq_true',
    Bool.not_eq_true', List.isEmpty_eq_false_iff, List.isEmpty_eq_false_iff]
  have storage : (scope.enumChange s t a b).underlying.isSome = true
      ↔ scope.old.typeName a.underlying ≠ scope.new.typeName b.underlying := by
    simp only [Scope.enumChange]
    split <;> simp_all
  rw [storage]
  refine or_congr_left ?_
  constructor
  · rintro (removed | changed)
    · obtain ⟨z, hz⟩ := List.exists_mem_of_ne_nil _ removed
      obtain ⟨here, gone⟩ := Catalog.mem_without.mp hz
      refine ⟨z.name, z.value, ?_, ?_⟩
      · rw [← find?_byName, Catalog.find?_key here]
        rfl
      · rw [← find?_byName, gone]
        exact (Option.some_ne_none _).symm
    · obtain ⟨⟨z, z'⟩, hz⟩ := List.exists_mem_of_ne_nil _ changed
      obtain ⟨mem, values⟩ := List.mem_filter.mp hz
      obtain ⟨here, there⟩ := Catalog.mem_common.mp mem
      refine ⟨z.name, z.value, ?_, ?_⟩
      · rw [← find?_byName, Catalog.find?_key here]
        rfl
      · rw [← find?_byName, there, Option.map_some, Option.some_inj.ne]
        exact (bne_iff_ne.mp values).symm
  · rintro ⟨name, value, old, new⟩
    rw [← find?_byName] at old new
    obtain ⟨z, found, rfl⟩ := Option.map_eq_some_iff.mp old
    have here := Catalog.mem_of_find? found
    have key := Catalog.key_of_find? found
    subst key
    cases there : b.byName.find? z.name with
    | none => exact .inl (List.ne_nil_of_mem (Catalog.mem_without.mpr ⟨here, there⟩))
    | some z' =>
        refine .inr (List.ne_nil_of_mem (List.mem_filter.mpr
          ⟨Catalog.mem_common.mpr ⟨here, there⟩, ?_⟩))
        rw [there, Option.map_some, Option.some_inj.ne] at new
        exact bne_iff_ne.mpr new.symm

/-! ## What is found is there

A report that breaks callers says that the types of the look do, and it names the layouts that show
it. -/

theorem RecordReason.layoutBreaks {c : RecordChange} (reason : scope.RecordReason c) :
    scope.LayoutBreaks c.old c.new c.oldLayout c.newLayout := by
  rcases reason.differs with size | alignment | vtable | access | bases | changed | removed
  · exact .inl size
  · exact .inr (.inl alignment)
  · exact .inr (.inr (.inl vtable))
  · exact .inr (.inr (.inr (.inl access)))
  · exact .inr (.inr (.inr (.inr (.inl bases))))
  · obtain ⟨⟨p, q⟩, mem⟩ := List.exists_mem_of_ne_nil _ changed
    exact .inr (.inr (.inr (.inr (.inr (.inl ⟨p, q, reason.changed p q mem⟩)))))
  · obtain ⟨p, mem⟩ := List.exists_mem_of_ne_nil _ removed
    exact .inr (.inr (.inr (.inr (.inr (.inr ⟨p, reason.removed p mem⟩)))))

theorem Looks.typesBreak {a b : String} {es : List Event} {d : Difference} {ch : Change}
    (look : scope.Looks a b es d)
    (direct : ∀ {c e}, DirectIn es c e → scope.DirectlyDiffers (c, e))
    (h : .reported ch ∈ es) (breaks : ch.isIncompatible = true) : scope.TypesBreak (a, b) := by
  cases look.reason direct h with
  | enum resolves reason =>
      exact .enum resolves reason.old reason.new reason.key
        (enumChange_isIncompatible_iff.mp breaks)
  | record resolves reason =>
      exact .record resolves reason.old reason.new reason.key reason.layoutBreaks

theorem bounds_breaks (scope : Scope) (entries : List Entry) :
    scope.Bounds (scope.LedTo entries) scope.DirectlyDiffers
      (fun ch => ch.isIncompatible = true → scope.Breaks entries) where
  parts led opens := by
    obtain ⟨use, part⟩ := opens.part
    exact .part led part
  answer _ look direct h := scope.bounds_differ.answer trivial look direct h
  reported led look direct h breaks := .types led (look.typesBreak direct h breaks)

theorem within_breaks {e : Entry} (listed : e ∈ entries) :
    Within (scope.LedTo entries) scope.DirectlyDiffers
      (fun ch => ch.isIncompatible = true → scope.Breaks entries) e where
  asked run h := by
    obtain ⟨use, part⟩ := run.asked h
    exact .root listed part
  reported run direct h _ := by
    cases run.reason h with
    | function reason =>
        refine .function listed (reason.imp_right ?_)
        rintro (here | ⟨a, b, part, differs⟩)
        · exact .inl here
        · exact .inr ⟨a, b, part, direct differs⟩
    | global reason => exact .global listed (reason.imp_right direct)

/-- A walk finds a break only if there is one. -/
theorem breaks_of_broken {w : Walk} (tour : scope.Tour .referenced .start entries w)
    (broken : w.Broken) : scope.Breaks entries := by
  obtain ⟨f, found, breaks⟩ := broken
  rw [Verdict.breaks, Bool.and_eq_true] at breaks
  exact (scope.bounds_breaks entries).of_tour tour (fun e listed => within_breaks listed)
    (fun f h => absurd h List.not_mem_nil) f found breaks.2

end Scope

/-! ## What is there is found

Where the fields of two records are found to be the same to a caller, those that are judged differ
by their types at most.  A field that changed is judged against its namesake, and one that was
removed against what comes first at its offset, if anything does; so neither can have happened. -/

section Records

variable {scope : Scope} {olds news : List Field} {v : Answers} {r : FieldsResult}
  {es : List Event} {s t : TypeDecl} {a b : RecordLayout} {d : Difference}

theorem FieldsRun.directlyDiffers (run : FieldsRun olds news v es r)
    (silent : r.difference.isDirect = false) {x y : Located}
    (judged : Judged olds news .reported x y) (differ : scope.FieldsDiffer x.1 y.1) :
    scope.DirectlyDiffers (x.1.typeId, y.1.typeId) := by
  have alike : v.differs (x, y) = false := by
    refine Bool.eq_false_iff.mpr ?_
    intro differs
    rw [run.breaks_of_differs judged differs] at silent
    cases silent
  rw [Answers.differs, Field.differs, Bool.or_eq_false_iff, Bool.or_eq_false_iff,
    bne_eq_false_iff_eq] at alike
  rcases differ with offset | access | types
  · exact absurd alike.1.1 offset
  · rw [alike.1.2] at access
    cases access
  · exact types

theorem Scope.FieldChanged.judged {p q : Field} (h : scope.FieldChanged olds news p q) :
    ∃ x y : Located, Judged olds news .reported x y ∧ x.1 = p ∧ y.1 = q := by
  obtain ⟨name, named, old, new, -⟩ := h
  rw [← find?_namedFields _ named] at old new
  obtain ⟨x, hx, rfl⟩ := Option.map_eq_some_iff.mp old
  obtain ⟨y, hy, rfl⟩ := Option.map_eq_some_iff.mp new
  refine ⟨x, y, .namesakes (Catalog.mem_common.mpr ⟨Catalog.mem_of_find? hx, ?_⟩), rfl, rfl⟩
  rw [Catalog.key_of_find? hx]
  exact hy

theorem Scope.FieldRemoved.judged {p q : Field} (h : scope.FieldRemoved olds news p)
    (first : news.find? (fun q => q.offset == p.offset) = some q) :
    ∃ x y : Located, Judged olds news .reported x y ∧ x.1 = p ∧ y.1 = q := by
  obtain ⟨mem, without, -⟩ := h
  obtain ⟨x, hx, rfl⟩ := exists_located mem
  rw [← firstAt?_map] at first
  obtain ⟨y, hy, rfl⟩ := Option.map_eq_some_iff.mp first
  exact ⟨x, y, .gone (mem_oneSided.mpr ⟨hx, without⟩) hy, rfl, rfl⟩

theorem FieldsRun.not_fieldChanged (run : FieldsRun olds news v es r)
    (silent : r.difference.isDirect = false) {p q : Field}
    (alike : ∀ {x y}, Judged olds news .reported x y →
      ¬ scope.DirectlyDiffers (x.1.typeId, y.1.typeId)) :
    ¬ scope.FieldChanged olds news p q := by
  intro changed
  obtain ⟨x, y, judged, rfl, rfl⟩ := changed.judged
  obtain ⟨-, -, -, -, differ⟩ := changed
  exact alike judged (run.directlyDiffers silent judged differ)

theorem FieldsRun.not_fieldRemoved (run : FieldsRun olds news v es r)
    (silent : r.difference.isDirect = false) {p : Field}
    (alike : ∀ {x y}, Judged olds news .reported x y →
      ¬ scope.DirectlyDiffers (x.1.typeId, y.1.typeId)) :
    ¬ scope.FieldRemoved olds news p := by
  intro removed
  cases first : news.find? (fun q => q.offset == p.offset) with
  | none =>
      obtain ⟨mem, without, -⟩ := removed
      obtain ⟨x, hx, rfl⟩ := exists_located mem
      have kept : r.removed ≠ [] := by
        rw [run.removed]
        refine List.ne_nil_of_mem (List.mem_map_of_mem (List.mem_filter.mpr
          ⟨mem_oneSided.mpr ⟨hx, without⟩, ?_⟩))
        rw [Option.map_eq_none_iff.mp ((firstAt?_map news _).trans first)]
        rfl
      rw [run.isDirect.mpr (.inr kept)] at silent
      cases silent
  | some q =>
      obtain ⟨x, y, judged, rfl, rfl⟩ := removed.judged first
      exact alike judged (run.directlyDiffers silent judged (removed.2.2 _ first))

/-- Two records whose comparison was quiet, and no part of which differs, are the same to a
caller. -/
theorem RecordRun.not_layoutBreaks (run : RecordRun s t a b es d) (quiet : Quiet es d)
    (alike : ∀ {use c e}, a.Part b use c e → ¬ scope.DirectlyDiffers (c, e)) :
    ¬ scope.LayoutBreaks s t a b := by
  obtain ⟨v, r, args, fes, bes, aes, fields, bases, -, whole, -, -, -⟩ := run.of_quiet quiet
  simp only [recordBreaks, Bool.or_eq_false_iff, Bool.not_eq_false',
    TypeDecl.sameRoom_eq_true_iff, vtablesAgree_iff] at whole
  obtain ⟨⟨⟨⟨access, size, alignment⟩, vtable⟩, silent⟩, -⟩ := whole
  rintro (size' | alignment' | vtable' | access' | bases' | ⟨p, q, changed⟩ | ⟨p, removed⟩)
  · exact size' size
  · exact alignment' alignment
  · exact vtable' vtable
  · rw [access] at access'
    cases access'
  · rcases bases with ⟨length, run⟩ | ⟨-, -, disagree⟩
    · rcases bases' with other | ⟨x, y, mem, access' | differs⟩
      · exact other length
      · exact access' ((run.agree rfl).2 x y mem).1
      · exact alike (.base length mem) differs
    · cases disagree
  · exact fields.not_fieldChanged silent (fun judged => alike (.field judged)) changed
  · exact fields.not_fieldRemoved silent (fun judged => alike (.field judged)) removed

end Records

namespace Scope

variable {scope : Scope} {entries : List Entry} {w : Walk}

theorem Looks.reports_enum {i j : String} {s t : TypeDecl} {a b : EnumLayout} {es : List Event}
    {d : Difference} (look : scope.Looks i j es d) (resolves : scope.Resolves i j s t)
    (hs : s.shape = .enum a) (ht : t.shape = .enum b) (key : s.linkKey = t.linkKey)
    (breaks : scope.ValuesBreak a b) : ∃ ch, .reported ch ∈ es ∧ ch.isIncompatible = true := by
  have incompatible : (scope.enumChange s t a b).isIncompatible = true :=
    enumChange_isIncompatible_iff.mpr breaks
  cases look.typesRun resolves with
  | differ differs => exact absurd differs (TypeDecl.not_differs_of_enum hs ht key)
  | builtin h | record h | function h => cases hs.symm.trans h
  | target _ target =>
      rw [TypeDecl.kind_of_shape hs] at target
      cases target
  | enum hs' ht' =>
      cases hs.symm.trans hs'
      cases ht.symm.trans ht'
      exact ⟨_, mem_reportOf.mpr ⟨by rw [incompatible, Bool.or_true], rfl⟩, incompatible⟩

/-- A walk that finds no break and swallows nothing has met no types that break callers. -/
theorem not_typesBreak_of_ledTo (tour : scope.Tour .referenced .start entries w)
    (whole : ¬ w.Broken) (heeded : ¬ scope.Swallowed entries w) {p : String × String}
    (led : scope.LedTo entries p) : ¬ scope.TypesBreak p := by
  obtain ⟨-, look, quiet, -⟩ := cleared_of_ledTo tour whole heeded led
  intro breaks
  cases breaks with
  | record resolves hs ht key breaks =>
      refine (look.recordRun resolves hs ht key).not_layoutBreaks quiet ?_ breaks
      intro use c e part
      have part : scope.Parts use p (c, e) := ⟨_, _, resolves, .layout hs ht part⟩
      exact not_directlyDiffers_of_ledTo tour whole heeded (led.part part)
  | enum resolves hs ht key breaks =>
      obtain ⟨ch, reported, incompatible⟩ := look.reports_enum resolves hs ht key breaks
      rw [quiet.reported reported] at incompatible
      cases incompatible

/-- Where there is a break the walk finds one, or it has swallowed a difference. -/
theorem broken_or_swallowed (tour : scope.Tour .referenced .start entries w)
    (breaks : scope.Breaks entries) : w.Broken ∨ scope.Swallowed entries w := by
  by_contra neither
  obtain ⟨whole, heeded⟩ := not_or.mp neither
  have alike {e : Entry} (listed : e ∈ entries) : e.Alike :=
    ((alike_or_broken tour e listed).resolve_left whole).1
  have same {p : String × String} (led : scope.LedTo entries p) : ¬ scope.DirectlyDiffers p :=
    not_directlyDiffers_of_ledTo tour whole heeded led
  cases breaks with
  | function listed differ =>
      obtain ⟨access, signature⟩ := alike listed
      rcases differ with access' | here | ⟨a, b, part, differs⟩
      · exact access' access
      · exact signature here
      · exact same (.root listed (.signature part)) differs
  | global listed differ =>
      rcases differ with access | differs
      · exact access (alike listed)
      · exact same (.root listed .global) differs
  | types led breaks => exact not_typesBreak_of_ledTo tour whole heeded led breaks

theorem swallowed_of_dropped (tour : scope.Tour .referenced .start entries w)
    (whole : ¬ w.Broken) {d : String × String} (dropped : scope.DroppedFrom entries d)
    (differs : scope.DirectlyDiffers d) : scope.Swallowed entries w := by
  by_contra heeded
  exact not_directlyDiffers_of_ledTo tour whole heeded dropped.ledTo differs

theorem Swallowed.dropped (h : scope.Swallowed entries w) :
    ∃ d, scope.DroppedFrom entries d ∧ scope.DirectlyDiffers d := by
  obtain ⟨d, dropped, q, -, leads, differs⟩ := h
  exact ⟨d, dropped, directlyDiffers_iff.mpr ⟨q, leads, differs⟩⟩

/-- Where no difference is dropped, a walk finds a break exactly if there is one. -/
theorem broken_iff (tour : scope.Tour .referenced .start entries w)
    (heeded : ∀ d, scope.DroppedFrom entries d → ¬ scope.DirectlyDiffers d) :
    w.Broken ↔ scope.Breaks entries := by
  constructor
  · exact breaks_of_broken tour
  · intro breaks
    refine (broken_or_swallowed tour breaks).resolve_right ?_
    intro swallowed
    obtain ⟨d, dropped, differs⟩ := swallowed.dropped
    exact heeded d dropped differs

end Scope

end AbiCompat
