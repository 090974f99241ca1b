/-
# Every finding has a way that leads to it

A finding about two types carries a path, the names of what was under comparison when it was made.

## What is proved

The names are those of the old types on a way through the two graphs.  It begins at types that two
declarations of one key are written in (for a finding in reach), or at two types of one key that
all types are compared by (for one out of reach); it goes from pair to part, and ends at the types
that changed.  Before them stands the name of the old declaration, if callers know it by name.

## How

The path of a walk is a stack that comparisons put names on and take them off.  What carries the
proof is that a comparison leaves the stack as it was, so that the names on it are those of the
looks under way (`TracesVisit`).  With that, each finding below a part becomes a finding below the
whole, on a way with one step more (`OnWay.through`).

## What is not

There may be other ways to the same types, and the one that is reported is the one that the walk
came by.  That it is a shortest one is not so.
-/
import Mathlib.Data.List.Chain
import AbiCompat.Proofs.Walk.Tour

namespace AbiCompat

/-- The two types whose change it is, if it is one of types. -/
def Change.types? : Change → Option (TypeDecl × TypeDecl)
  | .record c => some (c.old, c.new)
  | .enum c => some (c.old, c.new)
  | .function _ _ | .global _ _ => none

namespace Scope

/-! ## Ways -/

/-- The second pair is a part of the first, of types of one kind. -/
def Step (scope : Scope) (p q : String × String) : Prop :=
  ∃ s t use, scope.Resolves p.1 p.2 s t ∧ s.kind = t.kind ∧ s.Part t use q.1 q.2

/-- A way from one pair to another, from part to part. -/
structure Way (scope : Scope) (p q : String × String) (way : List (String × String)) : Prop where
  steps : way.IsChain scope.Step
  first : way.head? = some p
  last : way.getLast? = some q

/-- Two user-defined types of one kind that share a key, which is not left out. -/
structure CommonType (scope : Scope) (s t : TypeDecl) : Prop where
  old : s ∈ scope.old.userDefined
  new : t ∈ scope.new.userDefined
  kind : s.kind = t.kind
  key : s.linkKey = t.linkKey
  kept : scope.policy.ignores s.linkKey = false

/-- The pairs at which ways begin, by the reach of what is found on them, with the names that
their paths begin with. -/
inductive Begins (scope : Scope) : Reach → List String → String × String → Prop
  | function {f g : FunctionDecl} {use : Use} {a b : String} : scope.CommonFunction f g →
      f.signature.Part g.signature use a b → Begins scope .referenced [f.name] (a, b)
  | global {f g : GlobalDecl} : scope.CommonGlobal f g →
      Begins scope .referenced [f.name] (f.typeId, g.typeId)
  | type {s t : TypeDecl} : scope.CommonType s t → Begins scope .unreferenced [] (s.id, t.id)

variable {scope : Scope} {reach : Reach} {p q r : String × String} {way : List (String × String)}

theorem Way.single (scope : Scope) (p : String × String) : scope.Way p p [p] :=
  ⟨.singleton p, rfl, rfl⟩

theorem Way.cons (step : scope.Step p q) (h : scope.Way q r way) : scope.Way p r (p :: way) := by
  obtain ⟨steps, first, last⟩ := h
  obtain ⟨rest, rfl⟩ := List.head?_eq_some_iff.mp first
  exact ⟨.cons_cons step steps, rfl, List.getLast?_cons_cons.trans last⟩

end Scope

theorem TypeDecl.Part.kind_eq {s t : TypeDecl} {use : Use} {a b : String}
    (part : s.Part t use a b) : s.kind = t.kind := by
  cases part with
  | target kind => exact kind
  | signature hs ht | layout hs ht => rw [TypeDecl.kind_of_shape hs, TypeDecl.kind_of_shape ht]; rfl

namespace Scope

variable {scope : Scope} {reach : Reach}

theorem Parts.step {p q : String × String} {use : Use} (h : scope.Parts use p q) :
    scope.Step p q := by
  obtain ⟨s, t, resolves, part⟩ := h
  exact ⟨s, t, use, resolves, part.kind_eq, part⟩

/-! ## What comparisons find on their ways -/

/-- The finding is a change of the types at the end of a way from the pair, and its path is
what was on the stack and the names of the old types on the way. -/
def OnWay (scope : Scope) (reach : Reach) (stack : List String) (p : String × String)
    (f : Finding) : Prop :=
  f.reach = reach ∧ ∃ q way s t, scope.Way p q way ∧ scope.Resolves q.1 q.2 s t
    ∧ f.change.types? = some (s, t)
    ∧ f.path = stack.reverse ++ way.map fun r => scope.old.typeName r.1

/-- What is found on a way from a part is found on the way through it. -/
theorem OnWay.through {stack : List String} {p q : String × String} {f : Finding}
    (step : scope.Step p q) (h : scope.OnWay reach (scope.old.typeName p.1 :: stack) q f) :
    scope.OnWay reach stack p f := by
  obtain ⟨reached, r, way, s, t, leads, resolves, types, path⟩ := h
  refine ⟨reached, r, p :: way, s, t, leads.cons step, resolves, types, ?_⟩
  rw [path, List.reverse_cons, List.append_assoc, List.map_cons, List.singleton_append]

/-- The changes that a look reports are those of the two types. -/
theorem Looks.types_of_reported {a b : String} {es : List Event} {d : Difference} {ch : Change}
    (look : scope.Looks a b es d) (h : .reported ch ∈ es) :
    ∃ s t, scope.Resolves a b s t ∧ ch.types? = some (s, t) := by
  cases look.reporter h with
  | enum resolves => exact ⟨_, _, resolves, rfl⟩
  | record resolves _ _ _ run =>
      obtain ⟨_, _, _, _, _, _, _, _, rfl, _, _⟩ := run.reported h
      exact ⟨_, _, resolves, rfl⟩

/-- A comparison leaves the stack as it was, and what it finds is on ways from its pair. -/
def TracesVisit (scope : Scope) (reach : Reach) (w : Walk) (a b : String) (w' : Walk) : Prop :=
  w'.stack = w.stack ∧
    ∀ f ∈ w'.findings, f ∈ w.findings ∨ scope.OnWay reach w.stack (a, b) f

/-- Events leave the stack as it was.  What is found is on ways from what was asked for, or it
was reported with the path that the stack gives. -/
def TracesEvents (scope : Scope) (reach : Reach) (w : Walk) (es : List Event) (w' : Walk) : Prop :=
  w'.stack = w.stack ∧ ∀ f ∈ w'.findings, f ∈ w.findings
    ∨ (∃ a b d, .asked a b d ∈ es ∧ scope.OnWay reach w.stack (a, b) f)
    ∨ ∃ ch, .reported ch ∈ es ∧ f = ⟨reach, w.stack.reverse, ch⟩

theorem traces (scope : Scope) (reach : Reach) : scope.Invariant reach
    (fun w a b _ w' => scope.TracesVisit reach w a b w') (scope.TracesEvents reach) where
  done w := ⟨rfl, fun f h => .inl h⟩
  asked {w a b d w₁ es w'} _ _ first rest := by
    obtain ⟨stack, found⟩ := first
    obtain ⟨stack', found'⟩ := rest
    refine ⟨stack'.trans stack, ?_⟩
    intro f hf
    rw [stack] at found'
    rcases found' f hf with before | ⟨c, e, g, mem, onWay⟩ | ⟨ch, mem, same⟩
    · rcases found f before with before | onWay
      · exact .inl before
      · exact .inr (.inl ⟨a, b, d, List.mem_cons_self, onWay⟩)
    · exact .inr (.inl ⟨c, e, g, List.mem_cons_of_mem _ mem, onWay⟩)
    · exact .inr (.inr ⟨ch, List.mem_cons_of_mem _ mem, same⟩)
  reported {w c es w'} _ rest := by
    obtain ⟨stack, found⟩ := rest
    refine ⟨stack, ?_⟩
    intro f hf
    rcases found f hf with before | ⟨a, b, d, mem, onWay⟩ | ⟨ch, mem, same⟩
    · rcases List.mem_append.mp before with before | here
      · exact .inl before
      · exact .inr (.inr ⟨c, List.mem_cons_self, List.mem_singleton.mp here⟩)
    · exact .inr (.inl ⟨a, b, d, List.mem_cons_of_mem _ mem, onWay⟩)
    · exact .inr (.inr ⟨ch, List.mem_cons_of_mem _ mem, same⟩)
  again _ := ⟨rfl, fun f h => .inl h⟩
  fresh {w a b es d w'} _ look _ events := by
    obtain ⟨stack, found⟩ := events
    refine ⟨congrArg List.tail stack, ?_⟩
    intro f hf
    rcases found f hf with before | ⟨c, e, g, mem, onWay⟩ | ⟨ch, mem, rfl⟩
    · exact .inl before
    · obtain ⟨use, part⟩ := look.asked mem
      exact .inr (onWay.through part.step)
    · obtain ⟨s, t, resolves, types⟩ := look.types_of_reported mem
      refine .inr ⟨rfl, (a, b), [(a, b)], s, t, .single scope (a, b), resolves, types, ?_⟩
      rw [Walk.enter, List.reverse_cons, List.map_singleton]

/-! ## Whole walks -/

theorem types?_of_reason {e : Entry} {es : List Event} {ch : Change} (h : e.Reason es ch) :
    ch.types? = none := by
  cases h <;> rfl

/-- The findings about types are on ways from pairs as `P` says, with the names that go with
the pairs. -/
def AllOnWays (scope : Scope) (P : Reach → List String → String × String → Prop) (w : Walk) :
    Prop :=
  ∀ f ∈ w.findings, f.change.types? = none
    ∨ ∃ names p, P f.reach names p ∧ scope.OnWay f.reach names.reverse p f

theorem Tour.allOnWays {P : Reach → List String → String × String → Prop} {w w' : Walk}
    {entries : List Entry} (tour : scope.Tour reach w entries w')
    (begins : ∀ {e use a b}, e ∈ entries → e.Part use a b → P reach e.names (a, b))
    (start : scope.AllOnWays P w) : scope.AllOnWays P w' := by
  induction tour with
  | done => exact start
  | @step w w₁ w' e es rest trace run _ ih =>
      refine ih (fun mem => begins (List.mem_cons_of_mem _ mem)) ?_
      obtain ⟨⟨-, found⟩, -⟩ := (scope.traces reach).of_trace trace
      intro f hf
      rcases found f hf with before | ⟨a, b, d, mem, onWay⟩ | ⟨ch, mem, rfl⟩
      · exact start f before
      · obtain ⟨use, part⟩ := run.asked mem
        have names : e.names.reverse = e.names := by cases e <;> rfl
        refine .inr ⟨e.names, (a, b), ?_, ?_⟩ <;> rw [onWay.1]
        · exact begins List.mem_cons_self part
        · rw [names]
          exact onWay
      · exact .inl (types?_of_reason (run.reason mem))

theorem begins_of_export {e : Entry} {use : Use} {a b : String} (listed : e ∈ scope.exports)
    (part : e.Part use a b) : scope.Begins .referenced e.names (a, b) := by
  cases part with
  | signature part => exact .function (commonFunction_of_entry (.inl listed)) part
  | global => exact .global (commonGlobal_of_entry (.inl listed))
  | type => exact absurd listed type_notMem_exports

theorem commonType_of_kept {select : TypeDecl → Bool} {kind : TypeKind} {s t : TypeDecl}
    (selects : ∀ {t}, select t = true → t.kind = kind)
    (kept : (s, t) ∈ scope.keptPairs TypeDecl.linkKey
      ((Catalog.ofList (scope.old.userDefined.filter select) : Catalog TypeDecl.linkKey).common
        (Catalog.ofList (scope.new.userDefined.filter select) : Catalog TypeDecl.linkKey))) :
    scope.CommonType s t := by
  obtain ⟨hs, ht, kept⟩ := mem_keptPairs.mp kept
  obtain ⟨old, olds⟩ := List.mem_filter.mp (Catalog.mem_of_mem_ofList hs)
  obtain ⟨new, news⟩ := List.mem_filter.mp (Catalog.mem_of_mem_ofList (Catalog.mem_of_find? ht))
  exact ⟨old, new, (selects olds).trans (selects news).symm, (Catalog.key_of_find? ht).symm, kept⟩

end Scope

theorem TypeDecl.kind_of_record? {t : TypeDecl} (h : t.record?.isSome = true) :
    t.kind = .record := by
  cases hs : t.shape <;> simp_all [TypeDecl.record?, TypeDecl.kind, Shape.kind]

theorem TypeDecl.kind_of_enum? {t : TypeDecl} (h : t.enum?.isSome = true) : t.kind = .enum := by
  cases hs : t.shape <;> simp_all [TypeDecl.enum?, TypeDecl.kind, Shape.kind]

namespace Scope

variable {scope : Scope}

theorem commonType_of_userType {s t : TypeDecl} (listed : .type s t ∈ scope.userTypes) :
    scope.CommonType s t := by
  rcases List.mem_append.mp listed with record | enum
  · obtain ⟨⟨x, y⟩, kept, same⟩ := List.mem_map.mp record
    cases same
    exact commonType_of_kept TypeDecl.kind_of_record? kept
  · obtain ⟨⟨x, y⟩, kept, same⟩ := List.mem_map.mp enum
    cases same
    exact commonType_of_kept TypeDecl.kind_of_enum? kept

theorem begins_of_userType {e : Entry} {use : Use} {a b : String} (listed : e ∈ scope.userTypes)
    (part : e.Part use a b) : scope.Begins .unreferenced e.names (a, b) := by
  cases part with
  | signature => exact absurd listed function_notMem_userTypes
  | global => exact absurd listed global_notMem_userTypes
  | type => exact .type (commonType_of_userType listed)

theorem walk_allOnWays (scope : Scope) :
    scope.AllOnWays scope.Begins (scope.walk.run .start).2 := by
  obtain ⟨w, exported, rest⟩ := scope.walk_tour
  refine rest.allOnWays ?_ (exported.allOnWays begins_of_export ?_)
  · intro e use a b listed part
    split at listed
    · exact begins_of_userType listed part
    · exact absurd listed List.not_mem_nil
  · exact fun f h => absurd h List.not_mem_nil

end Scope

/-- A finding about two types lies at the end of a way that begins at two declarations of one
key; its path names the old one of them, if callers know it by name, and the old types on the
way. -/
theorem finding_on_way (old new : Interface) (policy : Policy) {f : Finding} {s t : TypeDecl}
    (found : f ∈ (compare old new policy).findings) (types : f.change.types? = some (s, t)) :
    ∃ names p q way, (Scope.mk old new policy).Begins f.reach names p
      ∧ (Scope.mk old new policy).Way p q way
      ∧ (Scope.mk old new policy).Resolves q.1 q.2 s t
      ∧ f.path = names ++ way.map (fun r => old.typeName r.1)
      ∧ f.pathText = String.intercalate "-> " (names ++ way.map fun r => old.typeName r.1) := by
  rcases (Scope.mk old new policy).walk_allOnWays f found with none | ⟨names, p, begins, onWay⟩
  · rw [types] at none
    cases none
  · obtain ⟨-, q, way, s', t', leads, resolves, types', path⟩ := onWay
    cases types'.symm.trans types
    rw [List.reverse_reverse] at path
    exact ⟨names, p, q, way, begins, leads, resolves, path, by rw [Finding.pathText, path]⟩

/-- A function that walks a list whose nodes have the given size. -/
def walksNodes (size : UInt64) : Interface :=
  { Interface.empty with
    types := .ofList [
      ⟨"n", "Node", "", "Node", "", size, 8,
        .record ⟨[⟨"next", "p", 0, .pub⟩], [], [], .structRecord, false, [], .pub⟩⟩,
      ⟨"p", "", "", "Node *", "n", 8, 8, .pointer⟩]
    functions := .ofList [⟨"walk", "", "walk", ⟨"p", [⟨"p", false, false⟩], []⟩, .pub⟩] }

/-- A node that grows is found on the way from the function by the pointer to the node. -/
theorem walksNodes_on_way :
    ∃ f ∈ (compare (walksNodes 8) (walksNodes 16) .plain).findings,
      f.path = ["walk", "Node *", "Node"] ∧ ∃ s t, f.change.types? = some (s, t)
        ∧ ∃ names p q way, (Scope.mk (walksNodes 8) (walksNodes 16) .plain).Begins f.reach names p
          ∧ (Scope.mk (walksNodes 8) (walksNodes 16) .plain).Way p q way
          ∧ (Scope.mk (walksNodes 8) (walksNodes 16) .plain).Resolves q.1 q.2 s t
          ∧ f.path = names ++ way.map (fun r => (walksNodes 8).typeName r.1)
          ∧ f.pathText
            = String.intercalate "-> " (names ++ way.map fun r => (walksNodes 8).typeName r.1) := by
  have found : ∃ f ∈ (compare (walksNodes 8) (walksNodes 16) .plain).findings,
      f.path = ["walk", "Node *", "Node"] ∧ f.change.types?.isSome := by decide
  obtain ⟨f, found, path, types⟩ := found
  obtain ⟨⟨s, t⟩, types⟩ := Option.isSome_iff_exists.mp types
  exact ⟨f, found, path, s, t, types, finding_on_way _ _ _ found types⟩

end AbiCompat
