/-
# Nothing is found twice

A comparison has at most one finding about two types, and at most one about a function or a global
variable of one linker set key.  Many ways may lead to the types, on both parts of the walk, and
yet only the first one comes upon their change.

## What carries the proof

The pairs of the findings are noted.  A look is fresh only at a pair that is not noted yet, so no
finding is about that pair; and while the parts are looked at it is noted, so none of their
findings is about it either.  That leaves the one report of the look itself.

`Walk.Distinct` is the invariant: no two findings have one subject, and the subjects that are pairs
of types are noted.  `distinct` shows it of one comparison of ids, by the induction on the trace;
`Tour.distinct` shows it of a tour, given that the declarations toured are different; and the two
parts of a walk are one tour after the other.

## What is not

Two findings may well tell the same story, of two pairs of ids that stand for one and the same
type.  Subjects are pairs of ids, as the cache has it, and not linker set keys.
-/
import AbiCompat.Proofs.Walk.Found
import AbiCompat.Proofs.Walk.Visits

namespace AbiCompat

/-- What a change is about: two types by their ids, or what is exported under a linker set
key. -/
inductive Subject where
  | types (pair : String × String)
  | function (key : String)
  | global (key : String)
deriving DecidableEq

def Change.subject : Change → Subject
  | record c => .types (c.old.id, c.new.id)
  | enum c => .types (c.old.id, c.new.id)
  | function f _ => .function f.linkKey
  | global f _ => .global f.linkKey

/-- The subject of the comparison of two exported declarations. -/
def Entry.subject? : Entry → Option Subject
  | function f _ => some (.function f.linkKey)
  | global f _ => some (.global f.linkKey)
  | type _ _ => none

/-- The subjects of the findings of a walk. -/
def Walk.subjects (w : Walk) : List Subject := w.findings.map fun f => f.change.subject

/-- What events report about. -/
def reportedSubjects (es : List Event) : List Subject := es.filterMap fun
  | .asked _ _ _ => none
  | .reported ch => some ch.subject

theorem Change.subject_of_types? {ch : Change} {s t : TypeDecl} (h : ch.types? = some (s, t)) :
    ch.subject = .types (s.id, t.id) := by
  cases ch <;> cases h <;> rfl

/-! ## One report

A look reports once, about its pair.  The comparison of two declarations reports once besides what
its looks report, about the declarations. -/

section Reports

variable {es : List Event} {ch : Change} {σ : Subject}

theorem mem_reportedSubjects :
    σ ∈ reportedSubjects es ↔ ∃ ch, .reported ch ∈ es ∧ ch.subject = σ := by
  rw [reportedSubjects, List.mem_filterMap]
  constructor
  · rintro ⟨_ | ch, mem, same⟩
    · cases same
    · exact ⟨ch, mem, Option.some.inj same⟩
  · rintro ⟨ch, mem, rfl⟩
    exact ⟨.reported ch, mem, rfl⟩

theorem reportedSubjects_of_quiet (quiet : ∀ {ch}, .reported ch ∉ es) :
    reportedSubjects es = [] := by
  refine List.eq_nil_iff_forall_not_mem.mpr fun σ mem => ?_
  obtain ⟨ch, mem, -⟩ := mem_reportedSubjects.mp mem
  exact quiet mem

theorem reportedSubjects_append (es es' : List Event) :
    reportedSubjects (es ++ es') = reportedSubjects es ++ reportedSubjects es' :=
  List.filterMap_append

theorem nodup_reportedSubjects_reportOf (flag : Bool) (ch : Change) :
    (reportedSubjects (reportOf flag ch)).Nodup := by
  cases flag with
  | true => exact List.nodup_singleton _
  | false => exact List.nodup_nil

theorem Scope.Looks.nodup_reported {scope : Scope} {a b : String} {d : Difference}
    (look : scope.Looks a b es d) : (reportedSubjects es).Nodup := by
  cases look with
  | unresolved | ignored => exact List.nodup_nil
  | types _ run =>
      cases run with
      | differ | builtin | target => exact List.nodup_nil
      | enum => exact nodup_reportedSubjects_reportOf _ _
      | record _ _ _ run =>
          obtain ⟨fields, bases, arguments⟩ := run
          simp only [reportedSubjects_append, reportedSubjects_of_quiet fields.quiet,
            reportedSubjects_of_quiet bases.quiet, reportedSubjects_of_quiet arguments.quiet,
            List.nil_append, List.append_nil]
          exact nodup_reportedSubjects_reportOf _ _
      | function _ _ run =>
          rw [reportedSubjects_of_quiet run.quiet]
          exact List.nodup_nil

theorem Scope.Looks.subject_of_reported {scope : Scope} {a b : String} {d : Difference}
    (look : scope.Looks a b es d) (h : σ ∈ reportedSubjects es) : σ = .types (a, b) := by
  obtain ⟨ch, mem, rfl⟩ := mem_reportedSubjects.mp h
  obtain ⟨s, t, resolves, types⟩ := look.types_of_reported mem
  rw [Change.subject_of_types? types, Catalog.key_of_find? resolves.old,
    Catalog.key_of_find? resolves.new]

theorem Entry.Run.nodup_reported {e : Entry} (run : e.Run es) : (reportedSubjects es).Nodup := by
  cases run with
  | function run =>
      rw [reportedSubjects_append, reportedSubjects_of_quiet run.quiet]
      exact nodup_reportedSubjects_reportOf _ _
  | global => exact nodup_reportedSubjects_reportOf _ _
  | type => exact List.nodup_nil

theorem Entry.Run.subject_of_reported {e : Entry} (run : e.Run es)
    (h : σ ∈ reportedSubjects es) : e.subject? = some σ := by
  obtain ⟨ch, mem, rfl⟩ := mem_reportedSubjects.mp h
  cases run.reason mem <;> rfl

end Reports

/-! ## One comparison

While a look is on its way, its own change can still be reported: nothing that was found before is
about it, and no fresh look below it is. -/

/-- No two findings are about the same, and the pairs of the findings are noted. -/
structure Walk.Distinct (w : Walk) : Prop where
  nodup : w.subjects.Nodup
  noted : ∀ p, .types p ∈ w.subjects → p ∈ w.visited

namespace Scope

variable {scope : Scope} {reach : Reach} {w w₁ w' : Walk} {es : List Event} {σ : Subject}

/-- What is about a pair that was not noted before. -/
def IsFresh (w : Walk) (σ : Subject) : Prop := ∃ p, p ∉ w.visited ∧ σ = .types p

theorem IsFresh.before (h : IsFresh w₁ σ) (grows : w.Grows w₁) : IsFresh w σ := by
  obtain ⟨p, fresh, same⟩ := h
  exact ⟨p, fun old => fresh (grows.visited old), same⟩

/-- Nothing that was found before is about it, and no fresh look is. -/
structure Reportable (w : Walk) (σ : Subject) : Prop where
  unfound : σ ∉ w.subjects
  settled : ¬ IsFresh w σ

theorem subjects_report (w : Walk) (reach : Reach) (ch : Change) :
    (w.report reach ch).subjects = w.subjects ++ [ch.subject] :=
  List.map_append

theorem distinct_report {ch : Change} (h : w.Distinct) (new : Reportable w ch.subject) :
    (w.report reach ch).Distinct := by
  constructor
  · rw [subjects_report]
    exact h.nodup.append (List.nodup_singleton _) (List.disjoint_singleton.mpr new.unfound)
  · intro p found
    rw [subjects_report] at found
    rcases List.mem_append.mp found with before | here
    · exact h.noted p before
    · by_contra fresh
      exact new.settled ⟨p, fresh, (List.mem_singleton.mp here).symm⟩

theorem Reportable.report {ch : Change} (h : Reportable w σ) (other : σ ≠ ch.subject) :
    Reportable (w.report reach ch) σ := by
  refine ⟨?_, h.settled⟩
  rw [subjects_report, List.mem_append, List.mem_singleton, not_or]
  exact ⟨h.unfound, other⟩

/-- Findings stay distinct under a comparison of two ids, and further ones are about pairs that
were not noted.  The same holds of events that report about different things. -/
theorem distinct (scope : Scope) (reach : Reach) : scope.Invariant reach
    (fun w _ _ _ w' => w.Distinct →
      w'.Distinct ∧ ∀ σ ∈ w'.subjects, σ ∈ w.subjects ∨ IsFresh w σ)
    (fun w es w' => w.Distinct → (reportedSubjects es).Nodup →
      (∀ σ ∈ reportedSubjects es, Reportable w σ) → w'.Distinct
        ∧ ∀ σ ∈ w'.subjects, σ ∈ w.subjects ∨ IsFresh w σ ∨ σ ∈ reportedSubjects es) where
  done w distinct _ _ := ⟨distinct, fun σ h => .inl h⟩
  asked {w a b d w₁ es w'} grows _ first rest := by
    intro start nodup reportable
    obtain ⟨middle, found⟩ := first start
    have still (σ : Subject) (mem : σ ∈ reportedSubjects es) : Reportable w₁ σ := by
      obtain ⟨unfound, settled⟩ := reportable σ mem
      exact ⟨fun h => (found σ h).elim unfound settled, fun fresh => settled (fresh.before grows)⟩
    obtain ⟨ending, found'⟩ := rest middle nodup still
    refine ⟨ending, fun σ h => ?_⟩
    rcases found' σ h with before | fresh | reported
    · exact (found σ before).imp_right .inl
    · exact .inr (.inl (fresh.before grows))
    · exact .inr (.inr reported)
  reported {w ch es w'} _ rest := by
    intro start nodup reportable
    obtain ⟨apart, nodup⟩ := List.nodup_cons.mp nodup
    have here := reportable ch.subject List.mem_cons_self
    have still (σ : Subject) (mem : σ ∈ reportedSubjects es) :
        Reportable (w.report reach ch) σ :=
      (reportable σ (List.mem_cons_of_mem _ mem)).report fun same => apart (same ▸ mem)
    obtain ⟨ending, found⟩ := rest (distinct_report start here) nodup still
    refine ⟨ending, fun σ h => ?_⟩
    rcases found σ h with before | fresh | reported
    · rw [subjects_report] at before
      rcases List.mem_append.mp before with before | here
      · exact .inl before
      · exact .inr (.inr (List.mem_singleton.mp here ▸ List.mem_cons_self))
    · exact .inr (.inl fresh)
    · exact .inr (.inr (List.mem_cons_of_mem _ reported))
  again _ distinct := ⟨distinct, fun σ h => .inl h⟩
  fresh {w a b es d w'} fresh look kept events := by
    intro start
    have entered : (w.enter (a, b) (scope.old.typeName a)).Distinct :=
      ⟨start.nodup, fun p h => List.mem_cons_of_mem _ (start.noted p h)⟩
    -- the pair is noted now, and nothing was found about it before
    have reportable (σ : Subject) (mem : σ ∈ reportedSubjects es) :
        Reportable (w.enter (a, b) (scope.old.typeName a)) σ := by
      cases look.subject_of_reported mem
      refine ⟨fun found => fresh (start.noted _ found), ?_⟩
      rintro ⟨p, unnoted, same⟩
      cases same
      exact unnoted List.mem_cons_self
    obtain ⟨ending, found⟩ := events entered look.nodup_reported reportable
    refine ⟨⟨ending.nodup, ending.noted⟩, fun σ h => ?_⟩
    rcases found σ h with before | fresh' | reported
    · exact .inl before
    · exact .inr (fresh'.before (.enter ..))
    · exact .inr ⟨(a, b), fresh, look.subject_of_reported reported⟩

/-! ## Whole walks

Functions and global variables are exported under one key each, and are no types, so the second
part of the walk does not come back to them. -/

theorem not_isFresh_of_subject? {e : Entry} (h : e.subject? = some σ) : ¬ IsFresh w σ := by
  rintro ⟨p, -, rfl⟩
  cases e <;> cases h

/-- Findings stay distinct under comparisons of different declarations that were not compared
before. -/
theorem Tour.distinct {entries : List Entry} (tour : scope.Tour reach w entries w')
    (nodup : (entries.filterMap Entry.subject?).Nodup)
    (unfound : ∀ σ ∈ entries.filterMap Entry.subject?, σ ∉ w.subjects) (start : w.Distinct) :
    w'.Distinct := by
  induction tour with
  | done => exact start
  | @step w w₁ w' e es rest trace run _ ih =>
      have own {σ : Subject} (mem : σ ∈ reportedSubjects es) :
          σ ∈ (e :: rest).filterMap Entry.subject? :=
        List.mem_filterMap.mpr ⟨e, List.mem_cons_self, run.subject_of_reported mem⟩
      obtain ⟨events, -⟩ := (scope.distinct reach).of_trace trace
      obtain ⟨middle, found⟩ := events ⟨start.nodup, start.noted⟩ run.nodup_reported
        fun σ mem => ⟨unfound σ (own mem), not_isFresh_of_subject? (run.subject_of_reported mem)⟩
      refine ih ?_ ?_ ⟨middle.nodup, middle.noted⟩
      · exact nodup.sublist (List.Sublist.filterMap _ (List.sublist_cons_self e rest))
      · intro σ mem
        obtain ⟨e', listed, subject⟩ := List.mem_filterMap.mp mem
        intro h
        rcases found σ h with before | fresh | reported
        · exact unfound σ (List.mem_filterMap.mpr ⟨e', List.mem_cons_of_mem _ listed, subject⟩)
            before
        · exact not_isFresh_of_subject? subject fresh
        · rw [List.filterMap_cons_some (run.subject_of_reported reported)] at nodup
          exact (List.nodup_cons.mp nodup).1 mem

theorem pairwise_keptPairs {α : Type} {key : α → String} (scope : Scope) (c d : Catalog key) :
    (scope.keptPairs key (c.common d)).Pairwise fun p q => key p.1 < key q.1 := by
  refine List.Pairwise.filter _ (List.pairwise_filterMap.mpr (c.ascending.imp ?_))
  intro x y lt p hp q hq
  obtain ⟨x', -, rfl⟩ := Option.map_eq_some_iff.mp hp
  obtain ⟨y', -, rfl⟩ := Option.map_eq_some_iff.mp hq
  exact lt

theorem nodup_subjects_exports (scope : Scope) :
    (scope.exports.filterMap Entry.subject?).Nodup := by
  have apart {α : Type} {key : α → String} {c d : Catalog key} {wrap : String → Subject}
      (injective : ∀ {k k'}, wrap k = wrap k' → k = k') :
      ((scope.keptPairs key (c.common d)).map fun p => wrap (key p.1)).Nodup := by
    refine List.pairwise_map.mpr ((scope.pairwise_keptPairs c d).imp fun lt same => ?_)
    rw [injective same] at lt
    exact String.lt_irrefl _ lt
  have subjects : scope.exports.filterMap Entry.subject?
      = ((scope.keptPairs FunctionDecl.linkKey
            (scope.old.functions.common scope.new.functions)).map
          fun p => Subject.function p.1.linkKey)
        ++ (scope.keptPairs GlobalDecl.linkKey (scope.old.globals.common scope.new.globals)).map
          fun p => Subject.global p.1.linkKey := by
    rw [exports, List.filterMap_append, List.filterMap_map, List.filterMap_map,
      ← List.filterMap_eq_map, ← List.filterMap_eq_map]
    rfl
  rw [subjects]
  refine List.Nodup.append (apart Subject.function.inj) (apart Subject.global.inj) ?_
  intro σ mem mem'
  obtain ⟨_, -, rfl⟩ := List.mem_map.mp mem
  obtain ⟨_, -, same⟩ := List.mem_map.mp mem'
  cases same

theorem subjects_userTypes (scope : Scope) : scope.userTypes.filterMap Entry.subject? = [] := by
  refine List.filterMap_eq_nil_iff.mpr ?_
  rintro (⟨f, g⟩ | ⟨f, g⟩ | ⟨s, t⟩) mem
  · exact absurd mem function_notMem_userTypes
  · exact absurd mem global_notMem_userTypes
  · rfl

theorem walk_distinct (scope : Scope) : (scope.walk.run .start).2.Distinct := by
  obtain ⟨w, exported, rest⟩ := scope.walk_tour
  have start : Walk.start.Distinct := ⟨List.nodup_nil, fun p h => absurd h List.not_mem_nil⟩
  have middle := exported.distinct scope.nodup_subjects_exports
    (fun σ _ => List.not_mem_nil) start
  have none : (if scope.policy.checkAll then scope.userTypes else []).filterMap Entry.subject?
      = [] := by
    split
    · exact scope.subjects_userTypes
    · rfl
  refine rest.distinct ?_ ?_ middle
  · rw [none]
    exact List.nodup_nil
  · rw [none]
    exact fun σ h => absurd h List.not_mem_nil

theorem linkKey_of_finds {e : Entry} {ch : Change} (listed : e ∈ scope.exports)
    (found : e.Finds ch) : (∀ f g, ch = .function f g → g.linkKey = f.linkKey)
      ∧ ∀ f g, ch = .global f g → g.linkKey = f.linkKey := by
  cases found with
  | ofType h => cases h <;> exact ⟨nofun, nofun⟩
  | function same h =>
      subst same h
      refine ⟨fun f g same => ?_, nofun⟩
      cases same
      exact Catalog.key_of_find? (commonFunction_of_entry (.inl listed)).new
  | global same h =>
      subst same h
      refine ⟨nofun, fun f g same => ?_⟩
      cases same
      exact Catalog.key_of_find? (commonGlobal_of_entry (.inl listed)).new

end Scope

/-- A comparison has at most one finding about a pair of types, whatever their kind, the way to
them and their reach, and at most one about a function and a global variable of one linker set
key, which both declarations have. -/
theorem nodup_subjects_compare (old new : Interface) (policy : Policy) :
    ((compare old new policy).findings.map fun f => f.change.subject).Nodup
      ∧ ∀ f ∈ (compare old new policy).findings,
        (∀ g h, f.change = .function g h → h.linkKey = g.linkKey)
          ∧ ∀ g h, f.change = .global g h → h.linkKey = g.linkKey := by
  refine ⟨(Scope.mk old new policy).walk_distinct.nodup, fun f mem => ?_⟩
  obtain ⟨exported, others, split, inUse, alone, -⟩ := findings_split old new policy
  rw [split] at mem
  rcases List.mem_append.mp mem with mem | mem
  · obtain ⟨-, e, listed, found⟩ := inUse f mem
    exact Scope.linkKey_of_finds listed found
  · obtain ⟨-, ofType⟩ := alone f mem
    generalize f.change = ch at ofType
    cases ofType <;> exact ⟨nofun, nofun⟩

end AbiCompat
