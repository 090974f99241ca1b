/-
# What a finding out of reach is out of

A finding about two types is tagged as out of reach exactly if the walk over the exported names has
not met their ids.  That walk does not meet everything that exported names lead to: a comparison
stops at the first parameter or base that differs, it does not pair members of lists of different
length, and it does not look into types of different kinds.

## What is proved

For a finding about two types with these ids:

    it is out of reach  ↔  the walk over exported names has not noted the ids
    it is out of reach  →  every path by which exported names lead to the ids, taken by the same
                           positions in both versions, is cut off somewhere

A path goes by positions: the result, the third parameter, the target of a pointer, the field of
some name, the second base.  `CutOff` names for each of them why a comparison may not come to it,
and does so from the declarations alone: lists of different lengths, an earlier member that
differs, kinds that differ, and the like.

The last theorem is the negative answer to the question that the tag suggests.  A function takes a
number and a record; the number changes, and the record grows.  The record is tagged as out of
reach, although the function leads to it in both versions.

## What is not

A path that is cut off is no proof that a finding is out of reach, since another path may lead
there.  And paths go by the same positions in both versions: that a field is held against one of
another name at its offset, as happens to unnamed ones, is no step of a path.
-/
import AbiCompat.Proofs.AllTypes
import AbiCompat.Proofs.Justified
import AbiCompat.Proofs.Walk.Found
import AbiCompat.Proofs.Walk.Visits

namespace AbiCompat

/-! ## Positions -/

/-- A place at which a declaration or a type refers to a type. -/
inductive Position where
  /-- What a global variable is of. -/
  | global
  | returns
  | parameter (i : Nat)
  | argument (i : Nat)
  /-- What a reference, a qualified type or an array is of. -/
  | target
  | field (name : String)
  | base (i : Nat)
deriving DecidableEq

def Signature.at? (s : Signature) : Position → Option String
  | .returns => some s.returns
  | .parameter i => s.params[i]?.map Param.typeId
  | .argument i => s.templateArgs[i]?
  | _ => none

def RecordLayout.at? (r : RecordLayout) : Position → Option String
  | .field name => if name = "" then none else (fieldOf? r.fields name).map Field.typeId
  | .base i => r.bases[i]?.map Base.typeId
  | .argument i => r.templateArgs[i]?
  | _ => none

/-- The id at a position of a type. -/
def TypeDecl.at? (t : TypeDecl) (pos : Position) : Option String :=
  match t.shape with
  | .function s => s.at? pos
  | .record r => r.at? pos
  | _ => if t.kind.hasTarget ∧ pos = .target then some t.target else none

/-- The ids at a position of two declarations of one key. -/
inductive Entry.At : Entry → Position → String → String → Prop
  | function {f g : FunctionDecl} {pos : Position} {a b : String} : f.signature.at? pos = some a →
      g.signature.at? pos = some b → At (.function f g) pos a b
  | global {f g : GlobalDecl} : At (.global f g) .global f.typeId g.typeId

namespace Scope

/-- The second pair stands at the position of two types, of which the new one is not left out. -/
def Follows (scope : Scope) (pos : Position) (p q : String × String) : Prop :=
  ∃ s t, scope.Resolves p.1 p.2 s t ∧ s.at? pos = some q.1 ∧ t.at? pos = some q.2

/-- A path of positions leads from an exported name of both versions to the pair. -/
inductive PathTo (scope : Scope) : List Position → String × String → Prop
  | root {e : Entry} {pos : Position} {a b : String} : e ∈ scope.exports → e.At pos a b →
      PathTo scope [pos] (a, b)
  | step {path : List Position} {pos : Position} {p q : String × String} :
      PathTo scope path p → scope.Follows pos p q → PathTo scope (path ++ [pos]) q

end Scope

/-! ## Where comparisons are cut off -/

/-- Some earlier members are not alike, or they differ directly. -/
def Scope.StopsBefore {α : Type} (scope : Scope) (id : α → String) (alike : α → α → Prop)
    (xs ys : List α) (i : Nat) : Prop :=
  ∃ j < i, ∃ x y, xs[j]? = some x ∧ ys[j]? = some y
    ∧ (¬ alike x y ∨ scope.DirectlyDiffers (id x, id y))

/-- Why the comparison of two signatures may not come to a position. -/
inductive Signature.CutOff (scope : Scope) (s t : Signature) : Position → Prop
  | parameters {i : Nat} : s.params.length ≠ t.params.length → CutOff scope s t (.parameter i)
  | earlier {i : Nat} : scope.StopsBefore Param.typeId Param.Alike s.params t.params i →
      CutOff scope s t (.parameter i)
  | arguments {i : Nat} : s.templateArgs.length ≠ t.templateArgs.length →
      CutOff scope s t (.argument i)

/-- Why the comparison of two records may not come to a position. -/
inductive RecordLayout.CutOff (scope : Scope) (a b : RecordLayout) : Position → Prop
  | bases {i : Nat} : a.bases.length ≠ b.bases.length → CutOff scope a b (.base i)
  | earlier {i : Nat} : scope.StopsBefore Base.typeId Base.Alike a.bases b.bases i →
      CutOff scope a b (.base i)
  | arguments {i : Nat} : a.templateArgs.length ≠ b.templateArgs.length →
      CutOff scope a b (.argument i)

/-- Why the comparison of two types may not come to a position.  Types that differ by themselves
are not looked into, but for functions. -/
inductive TypeDecl.CutOff (scope : Scope) (s t : TypeDecl) : Position → Prop
  | whole {pos : Position} : s.Differs t → (s.kind = t.kind → s.kind ≠ .function) →
      CutOff scope s t pos
  | signature {a b : Signature} {pos : Position} : s.shape = .function a →
      t.shape = .function b → a.CutOff scope b pos → CutOff scope s t pos
  | layout {a b : RecordLayout} {pos : Position} : s.shape = .record a → t.shape = .record b →
      a.CutOff scope b pos → CutOff scope s t pos

/-- Why the comparison of two declarations may not come to a position. -/
inductive Entry.CutOff (scope : Scope) : Entry → Position → Prop
  | function {f g : FunctionDecl} {pos : Position} : f.signature.CutOff scope g.signature pos →
      CutOff scope (.function f g) pos

namespace Scope

/-- The path leads to the pair, and on the way there the comparison is cut off before one of its
positions. -/
inductive CutOff (scope : Scope) : List Position → String × String → Prop
  | root {e : Entry} {pos : Position} {a b : String} : e ∈ scope.exports → e.At pos a b →
      e.CutOff scope pos → CutOff scope [pos] (a, b)
  | here {path : List Position} {pos : Position} {p q : String × String} {s t : TypeDecl} :
      scope.PathTo path p → scope.Follows pos p q → scope.Resolves p.1 p.2 s t →
      s.CutOff scope t pos → CutOff scope (path ++ [pos]) q
  | before {path : List Position} {pos : Position} {p q : String × String} :
      CutOff scope path p → scope.Follows pos p q → CutOff scope (path ++ [pos]) q

end Scope

/-! ## Looks come to what is not cut off

Members are asked for one after the other, and the comparison goes on while they are alike.  So a
member is asked for unless an earlier one differs, in itself or by its answer; and an answer
`direct` is given for a pair that does differ. -/

theorem TypeDecl.at?_of_hasTarget {t : TypeDecl} {pos : Position} {c : String}
    (target : t.kind.hasTarget = true)
    (at_pos : t.at? pos = some c) : c = t.target := by
  unfold TypeDecl.at? at at_pos
  split at at_pos
  · rename_i shape
    rw [TypeDecl.kind_of_shape shape] at target
    cases target
  · rename_i shape
    rw [TypeDecl.kind_of_shape shape] at target
    cases target
  · split at at_pos
    · exact (Option.some.inj at_pos).symm
    · cases at_pos

section Looks

variable {scope : Scope} {es : List Event} {d : Difference} {pos : Position} {c e : String}
  (truthful : ∀ {a b}, DirectIn es a b → scope.DirectlyDiffers (a, b))
include truthful

theorem AsksInTurn.asked {α : Type} {id : α → String} {alike : α → α → Prop} {xs ys : List α}
    (inTurn : AsksInTurn id alike (xs.zip ys) es) {i : Nat} {x y : α} (hx : xs[i]? = some x)
    (hy : ys[i]? = some y) (goesOn : ¬ scope.StopsBefore id alike xs ys i) :
    ∃ f, .asked (id x) (id y) f ∈ es := by
  refine inTurn i x y (List.getElem?_zip_eq_some.mpr ⟨hx, hy⟩) ?_
  intro j before x' y' there
  obtain ⟨hx', hy'⟩ := List.getElem?_zip_eq_some.mp there
  constructor
  · refine Classical.byContradiction fun unlike => goesOn ?_
    exact ⟨j, before, x', y', hx', hy', .inl unlike⟩
  · intro direct
    exact goesOn ⟨j, before, x', y', hx', hy', .inr (truthful direct)⟩

theorem SignatureRun.asked_at {s t : Signature} (run : SignatureRun s t es d)
    (hc : s.at? pos = some c) (he : t.at? pos = some e) (comes : ¬ s.CutOff scope t pos) :
    ∃ f, .asked c e f ∈ es := by
  cases pos with
  | returns =>
      cases hc
      cases he
      exact run.returns
  | parameter i =>
      obtain ⟨p, hp, rfl⟩ := Option.map_eq_some_iff.mp hc
      obtain ⟨q, hq, rfl⟩ := Option.map_eq_some_iff.mp he
      have length : s.params.length = t.params.length :=
        Classical.byContradiction fun other => comes (.parameters other)
      exact (run.inTurn length).asked truthful hp hq fun stops => comes (.earlier stops)
  | argument i =>
      have length : s.templateArgs.length = t.templateArgs.length :=
        Classical.byContradiction fun other => comes (.arguments other)
      have pair : (c, e) ∈ s.templateArgs.zip t.templateArgs :=
        List.mem_of_getElem? (List.getElem?_zip_eq_some.mpr ⟨hc, he⟩)
      exact run.arguments (.argument length pair)
  | global | target | field | base => cases hc

theorem RecordRun.asked_at {s t : TypeDecl} {a b : RecordLayout} (run : RecordRun s t a b es d)
    (hc : a.at? pos = some c) (he : b.at? pos = some e) (comes : ¬ a.CutOff scope b pos) :
    ∃ f, .asked c e f ∈ es := by
  obtain @⟨v, r, agree, args, fes, bes, aes, fields, bases, arguments⟩ := run
  cases pos with
  | field name =>
      by_cases named : name = ""
      · rw [RecordLayout.at?, if_pos named] at hc
        cases hc
      rw [RecordLayout.at?, if_neg named, ← find?_namedFields _ named, Option.map_map] at hc he
      obtain ⟨p, hp, rfl⟩ := Option.map_eq_some_iff.mp hc
      obtain ⟨q, hq, rfl⟩ := Option.map_eq_some_iff.mp he
      have namesakes : (p, q) ∈ (namedFields a.fields).common (namedFields b.fields) := by
        rw [Catalog.mem_common, Catalog.key_of_find? hp]
        exact ⟨Catalog.mem_of_find? hp, hq⟩
      exact ⟨v p q, List.mem_append_left _ (fields.judged (.namesakes namesakes))⟩
  | base i =>
      obtain ⟨x, hx, rfl⟩ := Option.map_eq_some_iff.mp hc
      obtain ⟨y, hy, rfl⟩ := Option.map_eq_some_iff.mp he
      have length : a.bases.length = b.bases.length :=
        Classical.byContradiction fun other => comes (.bases other)
      rcases bases with ⟨-, run⟩ | ⟨other, -⟩
      · refine AsksInTurn.asked truthful (run.inTurn.mono ?_) hx hy fun stops =>
          comes (.earlier stops)
        exact fun f mem => List.mem_append_right _ (List.mem_append_left _ mem)
      · exact absurd length other
  | argument i =>
      have length : a.templateArgs.length = b.templateArgs.length :=
        Classical.byContradiction fun other => comes (.arguments other)
      have pair : (c, e) ∈ a.templateArgs.zip b.templateArgs :=
        List.mem_of_getElem? (List.getElem?_zip_eq_some.mpr ⟨hc, he⟩)
      rcases arguments with ⟨-, run⟩ | ⟨other, -⟩
      · obtain ⟨f, asked⟩ := run.complete pair
        exact ⟨f, List.mem_append_right _ (List.mem_append_right _
          (List.mem_append_right _ asked))⟩
      · exact absurd length other
  | global | returns | parameter | target => cases hc

theorem Scope.TypesRun.asked_at {s t : TypeDecl} (run : scope.TypesRun s t es d)
    (hc : s.at? pos = some c) (he : t.at? pos = some e) (comes : ¬ s.CutOff scope t pos) :
    ∃ f, .asked c e f ∈ es := by
  cases run with
  | differ differs other => exact absurd (.whole differs other) comes
  | builtin hs | enum hs =>
      rw [TypeDecl.at?, TypeDecl.kind, hs] at hc
      cases hc
  | target kind target =>
      rw [TypeDecl.at?_of_hasTarget target hc, TypeDecl.at?_of_hasTarget (kind ▸ target) he]
      exact ⟨d, List.mem_singleton_self _⟩
  | record hs ht _ run =>
      rw [TypeDecl.at?, hs] at hc
      rw [TypeDecl.at?, ht] at he
      exact run.asked_at truthful hc he fun cut => comes (.layout hs ht cut)
  | function hs ht run =>
      rw [TypeDecl.at?, hs] at hc
      rw [TypeDecl.at?, ht] at he
      exact run.asked_at truthful hc he fun cut => comes (.signature hs ht cut)

end Looks

namespace Scope

variable {scope : Scope} {w w' : Walk} {path : List Position} {p q : String × String}

/-! ## What the walk over exported names meets -/

/-- What stands at a position of the pair is noted, if the comparison is not cut off before it. -/
def LookedInto (scope : Scope) (w : Walk) (p : String × String) : Prop :=
  ∀ pos s t q, scope.Follows pos p q → scope.Resolves p.1 p.2 s t → ¬ s.CutOff scope t pos →
    q ∈ w.visited

theorem LookedInto.grows (h : scope.LookedInto w p) (grows : w.Grows w') :
    scope.LookedInto w' p :=
  fun pos s t q follows resolves comes => grows.visited (h pos s t q follows resolves comes)

/-- Direct answers are given for pairs that differ, and what is noted meanwhile was looked
into. -/
theorem looksInto (scope : Scope) (reach : Reach) : scope.Invariant reach
    (fun w a b d w' => (d.isDirect = true → scope.DirectlyDiffers (a, b))
      ∧ ∀ p ∈ w'.visited, p ∈ w.visited ∨ scope.LookedInto w' p)
    (fun w es w' => (∀ {a b}, DirectIn es a b → scope.DirectlyDiffers (a, b))
      ∧ ∀ p ∈ w'.visited, p ∈ w.visited ∨ scope.LookedInto w' p) where
  done w := ⟨fun h => absurd h not_directIn_nil, fun p h => .inl h⟩
  asked _ kept first rest := by
    constructor
    · intro a b h
      rcases directIn_cons_asked h with ⟨same, direct⟩ | h
      · cases same
        exact first.1 direct
      · exact rest.1 h
    · intro p h
      rcases rest.2 p h with before | looked
      · exact (first.2 p before).imp_right fun looked => looked.grows kept.grows
      · exact .inr looked
  reported _ rest := ⟨fun h => rest.1 (directIn_cons_reported h), rest.2⟩
  again _ := ⟨nofun, fun p h => .inl h⟩
  fresh {w a b es d w'} _ look kept events := by
    obtain ⟨truthful, looked⟩ := events
    have left := Walk.Grows.leave w'
    refine ⟨scope.bounds_differ.answer trivial look truthful, ?_⟩
    intro p h
    rcases looked p h with before | looked
    · rcases List.mem_cons.mp before with rfl | before
      · refine .inr ?_
        rintro pos s t q ⟨s', t', resolves', old, new⟩ resolves comes
        obtain ⟨rfl, rfl⟩ := resolves.unique resolves'
        obtain ⟨f, asked⟩ := (look.typesRun resolves).asked_at truthful old new comes
        exact kept.asked asked
      · exact .inl before
    · exact .inr (looked.grows left)

/-- The walk over exported names meets the pair. -/
def MetInUse (scope : Scope) (p : String × String) : Prop :=
  p ∈ (scope.walkExports.run .start).2.visited

theorem MetInUse.lookedInto (h : scope.MetInUse p) :
    scope.LookedInto (scope.walkExports.run .start).2 p := by
  have tour := walkExports_tour scope .start
  refine (tour.keeps (P := fun w => ∀ p ∈ w.visited, scope.LookedInto w p) ?_ ?_) p h
  · intro w w₁ names e es _ trace _ before p h
    obtain ⟨⟨-, looked⟩, -⟩ := (scope.looksInto .referenced).of_trace trace
    have left : w₁.Grows (w₁.resetStack []) := ⟨List.Subset.refl _, List.Subset.refl _⟩
    rcases looked p h with old | looked
    · exact (before p old).grows (grows_of_trace trace)
    · exact looked.grows left
  · exact fun p h => absurd h List.not_mem_nil

/-- What stands at a position of an exported name is met, if the comparison is not cut off before
it. -/
theorem metInUse_of_entry {e : Entry} {pos : Position} {a b : String} (listed : e ∈ scope.exports)
    (at_pos : e.At pos a b) (comes : ¬ e.CutOff scope pos) : scope.MetInUse (a, b) := by
  have tour := walkExports_tour scope .start
  refine tour.each (P := fun e' w => e' = e → (a, b) ∈ w.visited) ?_ ?_ e listed rfl
  · intro e' w w' noted grows same
    exact grows.visited (noted same)
  · intro w w₁ names e' es _ trace run same
    subst same
    obtain ⟨⟨truthful, -⟩, kept⟩ := (scope.looksInto .referenced).of_trace trace
    cases at_pos with
    | function old new =>
        cases run with
        | function run =>
            obtain ⟨f, asked⟩ := run.asked_at
              (fun direct => truthful (direct.mono (List.subset_append_left _ _))) old new
              fun cut => comes (.function cut)
            exact kept.asked (List.mem_append_left _ asked)
    | global =>
        cases run with
        | global => exact kept.asked List.mem_cons_self

/-- A path leads to a pair that is met, or it is cut off. -/
theorem PathTo.metInUse_or_cutOff (h : scope.PathTo path q) :
    scope.MetInUse q ∨ scope.CutOff path q := by
  induction h with
  | @root e pos a b listed at_pos =>
      by_cases cut : e.CutOff scope pos
      · exact .inr (.root listed at_pos cut)
      · exact .inl (metInUse_of_entry listed at_pos cut)
  | @step path pos p q reached follows ih =>
      rcases ih with met | cut
      · obtain ⟨s, t, resolves, -⟩ := id follows
        by_cases cut : s.CutOff scope t pos
        · exact .inr (.here reached follows resolves cut)
        · exact .inl (met.lookedInto pos s t q follows resolves cut)
      · exact .inr (.before cut follows)

end Scope

/-! ## Findings out of reach -/

open Scope in
/-- A finding about two types is out of reach exactly if the walk over exported names has not met
their ids; and every path by which exported names lead to them is cut off. -/
theorem cutOff_of_unreferenced (old new : Interface) (policy : Policy) {f : Finding}
    {s t : TypeDecl} (found : f ∈ (compare old new policy).findings)
    (types : f.change.types? = some (s, t)) :
    (f.reach = .unreferenced ↔ ¬ (Scope.mk old new policy).MetInUse (s.id, t.id))
      ∧ (f.reach = .unreferenced → ∀ path, (Scope.mk old new policy).PathTo path (s.id, t.id) →
        (Scope.mk old new policy).CutOff path (s.id, t.id)) := by
  let scope : Scope := ⟨old, new, policy⟩
  have exported := walkExports_tour scope .start
  have rest := walk_rest_tour scope
  have first : ∀ g ∈ (scope.walkExports.run .start).2.findings, g.reach = .referenced
      ∧ NotedMeanwhile scope .start (scope.walkExports.run .start).2 g.change := by
    intro g mem
    obtain ⟨more, eq, all⟩ := exported.finds
    refine ⟨(all g ?_).1, (exported.notes g mem).resolve_left List.not_mem_nil⟩
    rw [eq] at mem
    exact mem
  have tag : f.reach = .unreferenced ↔ ¬ scope.MetInUse (s.id, t.id) := by
    rcases rest.notes f found with before | later
    · obtain ⟨reach, noted⟩ := first f before
      have met : scope.MetInUse (s.id, t.id) := (noted s t types).2.2
      rw [reach]
      exact ⟨nofun, fun unmet => absurd met unmet⟩
    · have unmet : ¬ scope.MetInUse (s.id, t.id) := (later s t types).2.1
      refine ⟨fun _ => unmet, fun _ => ?_⟩
      obtain ⟨more, eq, all⟩ := rest.finds
      have mem : f ∈ (scope.walkExports.run .start).2.findings ++ more := eq ▸ found
      rcases List.mem_append.mp mem with before | here
      · exact absurd ((first f before).2 s t types).2.2 unmet
      · exact (all f here).1
  refine ⟨tag, ?_⟩
  intro unreferenced path reached
  exact reached.metInUse_or_cutOff.resolve_left (tag.mp unreferenced)

/-- A function that takes a number and a record. -/
def takesRecord (number : String) (size : UInt64) : Interface :=
  { Interface.empty with
    types := .ofList [
      ⟨"i", "i", "", "int", "", 4, 4, .builtin ⟨false, true⟩⟩,
      ⟨"l", "l", "", "long", "", 8, 8, .builtin ⟨false, true⟩⟩,
      ⟨"S", "S", "", "S", "", size, 4,
        .record ⟨[], [], [], .structRecord, false, [], .pub⟩⟩]
    functions := .ofList [
      ⟨"f", "", "f", ⟨"i", [⟨number, false, false⟩, ⟨"S", false, false⟩], []⟩, .pub⟩] }

/-- Both versions of the function, of which the second takes another number. -/
def takesRecord.scope : Scope := ⟨takesRecord "i" 4, takesRecord "l" 8, .withAll .plain true⟩

theorem takesRecord_pathTo : takesRecord.scope.PathTo [.parameter 1] ("S", "S") := by
  let declared (number : String) : FunctionDecl :=
    ⟨"f", "", "f", ⟨"i", [⟨number, false, false⟩, ⟨"S", false, false⟩], []⟩, .pub⟩
  have common : takesRecord.scope.CommonFunction (declared "i") (declared "l") :=
    ⟨by decide, by decide, by decide⟩
  exact .root (Scope.mem_exports.mpr (.inl ⟨_, _, common, rfl⟩)) (.function rfl rfl)

/-- A change of the record is tagged as out of reach. -/
theorem takesRecord_found :
    ∃ f ∈ (compare (takesRecord "i" 4) (takesRecord "l" 8) (.withAll .plain true)).findings,
      ∃ s t, f.change.types? = some (s, t) ∧ f.reach = .unreferenced
        ∧ (s.id, t.id) = ("S", "S") := by
  have found :
      ∃ f ∈ (compare (takesRecord "i" 4) (takesRecord "l" 8) (.withAll .plain true)).findings,
        f.reach = .unreferenced
          ∧ f.change.types?.map (fun p => (p.1.id, p.2.id)) = some ("S", "S") := by
    decide
  obtain ⟨f, found, reach, types⟩ := found
  obtain ⟨⟨s, t⟩, types, ids⟩ := Option.map_eq_some_iff.mp types
  exact ⟨f, found, s, t, types, reach, ids⟩

/-- The comparison is cut off before it comes to the record: the first parameter differs. -/
theorem takesRecord_cutOff : takesRecord.scope.CutOff [.parameter 1] ("S", "S") := by
  obtain ⟨f, found, s, t, types, reach, ids⟩ := takesRecord_found
  have cut := (cutOff_of_unreferenced _ _ _ found types).2 reach [.parameter 1]
  rw [ids] at cut
  exact cut takesRecord_pathTo

/-- So an exported name may lead to what is tagged as out of reach. -/
theorem not_unreached_of_unreferenced :
    ¬ ∀ (old new : Interface) (policy : Policy) (f : Finding) (s t : TypeDecl),
      policy.checkAll = true → f ∈ (compare old new policy).findings →
      f.change.types? = some (s, t) → f.reach = .unreferenced →
      ¬ ∃ path, (Scope.mk old new policy).PathTo path (s.id, t.id) := by
  intro claim
  obtain ⟨f, found, s, t, types, reach, ids⟩ := takesRecord_found
  refine claim _ _ _ f s t rfl found types reach ⟨[.parameter 1], ?_⟩
  rw [ids]
  exact takesRecord_pathTo

end AbiCompat
