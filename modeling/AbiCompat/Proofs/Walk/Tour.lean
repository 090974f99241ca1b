/-
# The whole walk

The walk holds declarations of one key against each other, one pair after the other: first those
that are exported, then, if all types are to be compared, those of user-defined types.  Each
comparison leaves its marks to the next one.

## What is proved

`walk_tour`: the walk of the program is a tour of the exported declarations, and one of the
user-defined types if all types are to be compared.  A `Tour` is a list of comparisons that lead
from one state to another; each of them starts a path of its own, goes through the events of an
`Entry.Run`, and clears the path.  So a property of a whole walk is one of `Entry.Run`, of which
four lemmas are proved here, and one of events, which is an invariant of walks.

What stands in the tour is said without the catalogues: exported declarations are the functions and
the global variables that both versions have and that are not left out (`mem_exports`).

The findings of a comparison are those of the walk, and one that breaks callers makes the verdict
incompatible.
-/
import AbiCompat.Compare.Outcome
import AbiCompat.Proofs.Walk.Induction

namespace AbiCompat

/-- Two declarations of one key. -/
inductive Entry where
  | function (f g : FunctionDecl)
  | global (f g : GlobalDecl)
  | type (s t : TypeDecl)

/-- The names with which the path of a comparison begins. -/
def Entry.names : Entry → List String
  | function f _ => [f.name]
  | global f _ => [f.name]
  | type _ _ => []

/-- What the comparison of two declarations does. -/
inductive Entry.Run : Entry → List Event → Prop
  | function {f g : FunctionDecl} {es : List Event} {d : Difference} :
      SignatureRun f.signature g.signature es d →
      Run (.function f g) (es ++ reportOf (d.isDirect || f.access != g.access) (.function f g))
  | global {f g : GlobalDecl} {d : Difference} :
      Run (.global f g)
        (.asked f.typeId g.typeId d :: reportOf (d.isDirect || f.access != g.access) (.global f g))
  | type {s t : TypeDecl} {d : Difference} : Run (.type s t) [.asked s.id t.id d]

/-- The pairs of ids that two declarations are written in. -/
inductive Entry.Part : Entry → Use → String → String → Prop
  | signature {f g : FunctionDecl} {use : Use} {a b : String} :
      f.signature.Part g.signature use a b → Part (.function f g) use a b
  | global {f g : GlobalDecl} : Part (.global f g) .passedOn f.typeId g.typeId
  | type {s t : TypeDecl} : Part (.type s t) .dropped s.id t.id

/-- Why the comparison of two declarations may end in a report. -/
inductive Entry.Reason (es : List Event) : Entry → Change → Prop
  | function {f g : FunctionDecl} : f.access ≠ g.access ∨ f.signature.Differs g.signature ∨
      (∃ a b, f.signature.Part g.signature .passedOn a b ∧ DirectIn es a b) →
      Reason es (.function f g) (.function f g)
  | global {f g : GlobalDecl} : f.access ≠ g.access ∨ DirectIn es f.typeId g.typeId →
      Reason es (.global f g) (.global f g)

theorem Entry.Run.asked {e : Entry} {es : List Event} (run : e.Run es) {a b : String}
    {d : Difference} (h : .asked a b d ∈ es) : ∃ use, e.Part use a b := by
  cases run with
  | function run =>
      rcases List.mem_append.mp h with h | h
      · obtain ⟨use, part⟩ := run.asked h
        exact ⟨use, .signature part⟩
      · exact absurd h asked_notMem_reportOf
  | global =>
      rcases List.mem_cons.mp h with h | h
      · cases h
        exact ⟨_, .global⟩
      · exact absurd h asked_notMem_reportOf
  | type =>
      cases List.mem_singleton.mp h
      exact ⟨_, .type⟩

theorem Entry.Run.reason {e : Entry} {es : List Event} (run : e.Run es) {ch : Change}
    (h : .reported ch ∈ es) : e.Reason es ch := by
  cases run with
  | function run =>
      rcases List.mem_append.mp h with h | h
      · exact absurd h run.quiet
      obtain ⟨reports, same⟩ := mem_reportOf.mp h
      cases same
      refine .function ?_
      rw [Bool.or_eq_true, bne_iff_ne] at reports
      rcases reports with differs | access
      · rcases run.direct differs with here | ⟨a, b, part, direct⟩
        · exact .inr (.inl here)
        · exact .inr (.inr ⟨a, b, part, direct.mono (List.subset_append_left _ _)⟩)
      · exact .inl access
  | global =>
      rcases List.mem_cons.mp h with h | h
      · cases h
      obtain ⟨reports, same⟩ := mem_reportOf.mp h
      cases same
      refine .global ?_
      rw [Bool.or_eq_true, bne_iff_ne] at reports
      rcases reports with differs | access
      · exact .inr ⟨_, List.mem_cons_self, differs⟩
      · exact .inl access
  | type => cases List.mem_singleton.mp h

/-- A direct difference of a part of two declarations is dropped, or it is reported. -/
theorem Entry.Run.used {e : Entry} {es : List Event} (run : e.Run es) {a b : String}
    (h : DirectIn es a b) :
    e.Part .dropped a b ∨ ∃ ch, .reported ch ∈ es ∧ ch.isIncompatible = true := by
  cases run with
  | function run =>
      rcases directIn_append.mp h with h | ⟨f, hf, -⟩
      · rcases run.used h with ⟨direct, -⟩ | part
        · refine .inr ⟨_, List.mem_append_right _ (mem_reportOf.mpr ⟨?_, rfl⟩), rfl⟩
          rw [direct, Bool.true_or]
        · exact .inl (.signature part)
      · exact absurd hf asked_notMem_reportOf
  | global =>
      obtain ⟨f, hf, direct⟩ := h
      rcases List.mem_cons.mp hf with same | hf
      · cases same
        refine .inr ⟨_, List.mem_cons_of_mem _ (mem_reportOf.mpr ⟨?_, rfl⟩), rfl⟩
        rw [direct, Bool.true_or]
      · exact absurd hf asked_notMem_reportOf
  | type =>
      obtain ⟨f, hf, -⟩ := h
      cases List.mem_singleton.mp hf
      exact .inl .type

/-- Two declarations that a caller cannot tell apart without a look at their types. -/
def Entry.Alike : Entry → Prop
  | function f g => f.access = g.access ∧ ¬ f.signature.Differs g.signature
  | global f g => f.access = g.access
  | type _ _ => True

/-- Where two declarations are not reported they are alike, and all parts were asked for. -/
theorem Entry.Run.settled {e : Entry} {es : List Event} (run : e.Run es)
    (quiet : ∀ {ch}, .reported ch ∈ es → ch.isIncompatible = false) :
    e.Alike ∧ ∀ {use a b}, e.Part use a b → ∃ f, .asked a b f ∈ es := by
  cases run with
  | @function f g es d run =>
      have silent : (d.isDirect || f.access != g.access) = false := by
        refine Bool.eq_false_iff.mpr ?_
        intro reports
        cases quiet (List.mem_append_right _ (mem_reportOf.mpr ⟨reports, rfl⟩))
      rw [Bool.or_eq_false_iff, bne_eq_false_iff_eq] at silent
      refine ⟨⟨silent.2, (run.same silent.1).1⟩, ?_⟩
      rintro use a b (part | - | -)
      obtain ⟨f, asked⟩ := run.all_asked silent.1 part
      exact ⟨f, List.mem_append_left _ asked⟩
  | @global f g d =>
      have silent : (d.isDirect || f.access != g.access) = false := by
        refine Bool.eq_false_iff.mpr ?_
        intro reports
        cases quiet (List.mem_cons_of_mem _ (mem_reportOf.mpr ⟨reports, rfl⟩))
      rw [Bool.or_eq_false_iff, bne_eq_false_iff_eq] at silent
      refine ⟨silent.2, ?_⟩
      rintro use a b (- | - | -)
      exact ⟨d, List.mem_cons_self⟩
  | type =>
      refine ⟨trivial, ?_⟩
      rintro use a b (- | - | -)
      exact ⟨_, List.mem_cons_self⟩

namespace Scope

/-! ## What is held against each other -/

/-- Both versions have the function, and it is not left out. -/
structure CommonFunction (scope : Scope) (f g : FunctionDecl) : Prop where
  old : f ∈ scope.old.functions.items
  new : scope.new.functions.find? f.linkKey = some g
  kept : scope.policy.ignores f.linkKey = false

/-- Both versions have the global variable, and it is not left out. -/
structure CommonGlobal (scope : Scope) (f g : GlobalDecl) : Prop where
  old : f ∈ scope.old.globals.items
  new : scope.new.globals.find? f.linkKey = some g
  kept : scope.policy.ignores f.linkKey = false

/-- The pairs that are not left out. -/
def keptPairs {α : Type} (scope : Scope) (key : α → String) (pairs : List (α × α)) :
    List (α × α) :=
  pairs.filter fun p => !scope.policy.ignores (key p.1)

/-- The exported declarations, in the order of the walk. -/
def exports (scope : Scope) : List Entry :=
  (scope.keptPairs FunctionDecl.linkKey (scope.old.functions.common scope.new.functions)).map
      (fun p => .function p.1 p.2)
    ++ (scope.keptPairs GlobalDecl.linkKey (scope.old.globals.common scope.new.globals)).map
      (fun p => .global p.1 p.2)

/-- The user-defined types, in the order of the walk. -/
def userTypes (scope : Scope) : List Entry :=
  (scope.keptPairs TypeDecl.linkKey ((recordsByKey scope.old).common (recordsByKey scope.new))).map
      (fun p => .type p.1 p.2)
    ++ (scope.keptPairs TypeDecl.linkKey ((enumsByKey scope.old).common (enumsByKey scope.new))).map
      (fun p => .type p.1 p.2)

theorem mem_keptPairs {α : Type} {scope : Scope} {key : α → String} {c d : Catalog key} {x y : α} :
    (x, y) ∈ scope.keptPairs key (c.common d) ↔
      x ∈ c.items ∧ d.find? (key x) = some y ∧ scope.policy.ignores (key x) = false := by
  rw [keptPairs, List.mem_filter, Catalog.mem_common, Bool.not_eq_true', and_assoc]

/-- Exported declarations are the functions and the global variables of both versions. -/
theorem mem_exports {scope : Scope} {e : Entry} : e ∈ scope.exports ↔
    (∃ f g, scope.CommonFunction f g ∧ e = .function f g)
      ∨ ∃ f g, scope.CommonGlobal f g ∧ e = .global f g := by
  rw [exports, List.mem_append, List.mem_map, List.mem_map]
  constructor
  · rintro (⟨⟨f, g⟩, mem, rfl⟩ | ⟨⟨f, g⟩, mem, rfl⟩)
    · obtain ⟨old, new, kept⟩ := mem_keptPairs.mp mem
      exact .inl ⟨f, g, ⟨old, new, kept⟩, rfl⟩
    · obtain ⟨old, new, kept⟩ := mem_keptPairs.mp mem
      exact .inr ⟨f, g, ⟨old, new, kept⟩, rfl⟩
  · rintro (⟨f, g, common, rfl⟩ | ⟨f, g, common, rfl⟩)
    · exact .inl ⟨(f, g), mem_keptPairs.mpr ⟨common.old, common.new, common.kept⟩, rfl⟩
    · exact .inr ⟨(f, g), mem_keptPairs.mpr ⟨common.old, common.new, common.kept⟩, rfl⟩

theorem function_notMem_userTypes {scope : Scope} {f g : FunctionDecl} :
    .function f g ∉ scope.userTypes := by
  simp [userTypes]

theorem global_notMem_userTypes {scope : Scope} {f g : GlobalDecl} :
    .global f g ∉ scope.userTypes := by
  simp [userTypes]

theorem commonFunction_of_entry {scope : Scope} {f g : FunctionDecl}
    (h : .function f g ∈ scope.exports ∨ .function f g ∈ scope.userTypes) :
    scope.CommonFunction f g := by
  rcases h with h | h
  · rcases mem_exports.mp h with ⟨_, _, common, same⟩ | ⟨_, _, _, same⟩
    · cases same
      exact common
    · cases same
  · exact absurd h function_notMem_userTypes

theorem commonGlobal_of_entry {scope : Scope} {f g : GlobalDecl}
    (h : .global f g ∈ scope.exports ∨ .global f g ∈ scope.userTypes) :
    scope.CommonGlobal f g := by
  rcases h with h | h
  · rcases mem_exports.mp h with ⟨_, _, _, same⟩ | ⟨_, _, common, same⟩
    · cases same
    · cases same
      exact common
  · exact absurd h global_notMem_userTypes

theorem type_notMem_exports {scope : Scope} {s t : TypeDecl} : .type s t ∉ scope.exports := by
  intro h
  rcases mem_exports.mp h with ⟨_, _, _, same⟩ | ⟨_, _, _, same⟩ <;> cases same

/-! ## One comparison after the other -/

/-- Comparisons that lead from one state to another; each starts a path of its own. -/
inductive Tour (scope : Scope) (reach : Reach) : Walk → List Entry → Walk → Prop
  | done (w : Walk) : Tour scope reach w [] w
  | step {w w₁ w' : Walk} {e : Entry} {es : List Event} {rest : List Entry} :
      Trace (scope.compareIds reach) reach (w.resetStack e.names) es w₁ →
      e.Run es → Tour scope reach (w₁.resetStack []) rest w' → Tour scope reach w (e :: rest) w'

variable {scope : Scope} {reach : Reach} {w w₁ w' : Walk}

theorem Tour.append {entries entries' : List Entry} (h : scope.Tour reach w entries w₁)
    (h' : scope.Tour reach w₁ entries' w') : scope.Tour reach w (entries ++ entries') w' := by
  induction h with
  | done => exact h'
  | step trace run _ ih => exact .step trace run (ih h')

/-- What holds at the start and is kept by each comparison holds at the end. -/
theorem Tour.keeps {P : Walk → Prop} {entries : List Entry}
    (tour : scope.Tour reach w entries w')
    (step : ∀ {w w₁ names e es}, e ∈ entries →
      Trace (scope.compareIds reach) reach (w.resetStack names) es w₁ → e.Run es → P w →
      P (w₁.resetStack []))
    (start : P w) : P w' := by
  induction tour with
  | done => exact start
  | step trace run _ ih =>
      exact ih (fun mem => step (List.mem_cons_of_mem _ mem))
        (step List.mem_cons_self trace run start)

theorem grows_of_trace {names : List String} {es : List Event}
    (trace : Trace (scope.compareIds reach) reach (w.resetStack names) es w₁) :
    w.Grows (w₁.resetStack []) :=
  ⟨trace.kept.grows.visited, trace.kept.grows.findings⟩

theorem Tour.grows {entries : List Entry} (tour : scope.Tour reach w entries w') :
    w.Grows w' := by
  induction tour with
  | done => exact .refl _
  | step trace _ _ ih => exact (grows_of_trace trace).trans ih

theorem Tour.each {P : Entry → Walk → Prop} {entries : List Entry}
    (tour : scope.Tour reach w entries w')
    (stays : ∀ {e w w'}, P e w → Walk.Grows w w' → P e w')
    (step : ∀ {w w₁ : Walk} {names e es}, e ∈ entries →
      Trace (scope.compareIds reach) reach (w.resetStack names) es w₁ → e.Run es → P e w₁) :
    ∀ e ∈ entries, P e w' := by
  induction tour with
  | done => exact fun e h => absurd h List.not_mem_nil
  | step trace run rest ih =>
      intro e mem
      rcases List.mem_cons.mp mem with rfl | mem
      · exact stays (step List.mem_cons_self trace run) ⟨rest.grows.visited, rest.grows.findings⟩
      · exact ih (fun mem => step (List.mem_cons_of_mem _ mem)) e mem

theorem Tour.global_noted {f g : GlobalDecl} (tour : scope.Tour reach w scope.exports w')
    (common : scope.CommonGlobal f g) : (f.typeId, g.typeId) ∈ w'.visited := by
  refine tour.each
    (P := fun e w => e = .global f g → (f.typeId, g.typeId) ∈ w.visited) ?_ ?_
    _ (mem_exports.mpr (.inr ⟨f, g, common, rfl⟩)) rfl
  · exact fun noted grows same => grows.visited (noted same)
  · intro w w₁ names e es _ trace run same
    subst same
    cases run with
    | global => exact trace.kept.asked List.mem_cons_self

/-- A step that starts a path, goes through events as the declarations say, and clears the
path. -/
def Tours (scope : Scope) (reach : Reach) (step : Walking Difference) (e : Entry) : Prop :=
  ∀ w : Walk, ∃ es w₁, Trace (scope.compareIds reach) reach (w.resetStack e.names) es w₁
    ∧ e.Run es ∧ (step.run w).2 = w₁.resetStack []

theorem compareFunctions_eq (f g : FunctionDecl) :
    scope.compareFunctions reach f g = (do
      Walking.resetStack [f.name]
      let d ← compareSignatures (scope.compareIds reach) f.signature g.signature
      reportIf reach (d.isDirect || f.access != g.access) (.function f g)
      Walking.resetStack []
      return d) := by
  unfold compareFunctions reportIf
  refine bind_congr fun _ => bind_congr fun d => ?_
  rw [bind_ite_eq]
  rfl

theorem compareFunctions_tours (f g : FunctionDecl) :
    scope.Tours reach (scope.compareFunctions reach f g) (.function f g) := by
  intro w
  rw [compareFunctions_eq]
  obtain ⟨es, trace, run⟩ := @compareSignatures_does (scope.compareIds reach) reach
    f.signature g.signature (w.resetStack [f.name])
  obtain ⟨_, trace', rfl⟩ := @reportIf_does (scope.compareIds reach) reach
    (_ || f.access != g.access) (.function f g) _
  exact ⟨_, _, trace.append trace', .function run, rfl⟩

theorem compareGlobals_eq (f g : GlobalDecl) :
    scope.compareGlobals reach f g = (do
      Walking.resetStack [f.name]
      let d ← scope.compareIds reach f.typeId g.typeId
      reportIf reach (d.isDirect || f.access != g.access) (.global f g)
      Walking.resetStack []
      return d) := by
  unfold compareGlobals reportIf
  refine bind_congr fun _ => bind_congr fun d => ?_
  rw [bind_ite_eq]
  rfl

theorem compareGlobals_tours (f g : GlobalDecl) :
    scope.Tours reach (scope.compareGlobals reach f g) (.global f g) := by
  intro w
  rw [compareGlobals_eq]
  obtain ⟨_, trace, rfl⟩ := @reportIf_does (scope.compareIds reach) reach
    (_ || f.access != g.access) (.global f g) _
  exact ⟨_, _, .asked trace, .global, rfl⟩

theorem compareUserTypes_tours (s t : TypeDecl) :
    scope.Tours reach (scope.compareUserTypes reach s t) (.type s t) :=
  fun _ => ⟨_, _, .asked (.done _), .type, rfl⟩

theorem walkPairs_tour {α : Type} {key : α → String} {step : α → α → Walking Difference}
    {entry : α → α → Entry} (tours : ∀ x y, scope.Tours reach (step x y) (entry x y))
    (pairs : List (α × α)) (w : Walk) :
    scope.Tour reach w ((scope.keptPairs key pairs).map fun p => entry p.1 p.2)
      ((scope.walkPairs key step pairs).run w).2 := by
  induction pairs generalizing w with
  | nil => exact .done w
  | cons p pairs ih =>
      obtain ⟨x, y⟩ := p
      cases ignored : scope.policy.ignores (key x) with
      | true =>
          have run : (scope.walkPairs key step ((x, y) :: pairs)).run w
              = (scope.walkPairs key step pairs).run w := by
            rw [walkPairs, ignored]
            rfl
          have skip : scope.keptPairs key ((x, y) :: pairs) = scope.keptPairs key pairs :=
            List.filter_cons_of_neg (by rw [ignored]; exact Bool.false_ne_true)
          rw [run, skip]
          exact ih w
      | false =>
          have run : (scope.walkPairs key step ((x, y) :: pairs)).run w
              = (scope.walkPairs key step pairs).run ((step x y).run w).2 := by
            rw [walkPairs, ignored]
            rfl
          have take : scope.keptPairs key ((x, y) :: pairs)
              = (x, y) :: scope.keptPairs key pairs :=
            List.filter_cons_of_pos (by rw [ignored]; rfl)
          obtain ⟨es, w₁, trace, events, left⟩ := tours x y w
          rw [run, take, left]
          exact .step trace events (ih _)

theorem walkExports_tour (scope : Scope) (w : Walk) :
    scope.Tour .referenced w scope.exports (scope.walkExports.run w).2 :=
  (walkPairs_tour compareFunctions_tours _ w).append (walkPairs_tour compareGlobals_tours _ _)

theorem walkUserTypes_tour (scope : Scope) (w : Walk) :
    scope.Tour .unreferenced w scope.userTypes (scope.walkUserTypes.run w).2 :=
  (walkPairs_tour compareUserTypes_tours _ w).append (walkPairs_tour compareUserTypes_tours _ _)

theorem walk_rest_tour (scope : Scope) : scope.Tour .unreferenced (scope.walkExports.run .start).2
    (if scope.policy.checkAll then scope.userTypes else []) (scope.walk.run .start).2 := by
  unfold walk
  cases scope.policy.checkAll with
  | true => exact walkUserTypes_tour scope _
  | false => exact .done _

/-- The walk as a tour of the exported declarations, and one of the user-defined types if
all types are to be compared. -/
theorem walk_tour (scope : Scope) : ∃ w, scope.Tour .referenced .start scope.exports w ∧
    scope.Tour .unreferenced w (if scope.policy.checkAll then scope.userTypes else [])
      (scope.walk.run .start).2 :=
  ⟨_, walkExports_tour scope .start, walk_rest_tour scope⟩

end Scope

theorem findings_compare (old new : Interface) (policy : Policy) :
    (compare old new policy).findings
      = ((Scope.mk old new policy).walk.run .start).2.findings :=
  rfl

theorem verdict_compare (old new : Interface) (policy : Policy) :
    (compare old new policy).verdict = .ofFindings (compare old new policy).findings
      (compare old new policy).lone (compare old new policy).symbols :=
  rfl

theorem isIncompatible_compare_of_breaks {old new : Interface} {policy : Policy} {f : Finding}
    (found : f ∈ (compare old new policy).findings) (breaks : Verdict.breaks f = true) :
    (compare old new policy).verdict.isIncompatible = true := by
  rw [verdict_compare, Verdict.isIncompatible_ofFindings, Bool.or_eq_true, List.any_eq_true]
  exact .inl ⟨f, found, breaks⟩

end AbiCompat
