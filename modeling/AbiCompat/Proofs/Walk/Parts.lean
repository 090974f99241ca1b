/-
# The pairs that a comparison looks into

A comparison of two types asks for the comparison of further pairs: its parts.  What becomes of the
answer depends on the part (`Use`).  A direct difference of a target, a parameter or a returned
type is the answer of the whole; one of a base or of a matched field ends in a finding; one of a
template argument, or of a field that only the new record has, is dropped.

## Definitions

`DirectlyDiffers` is the difference that the rules describe, with no note of the pairs that were
looked at: it is the least relation that holds where two types differ by themselves, and is passed
on from part to whole.  It is the yardstick for what a walk answers and finds, and
`directlyDiffers_iff` says it once more with a way: a pair differs directly when it leads to one
that differs by itself.

A way leads through parts that pass their differences on.  What is dropped or ends in a finding is
no step of it.

## What is proved

The parts of two types are ids that the types refer to, so that the pairs which a comparison can
meet are known beforehand; and a thing has no part but with itself, if it is compared with itself.
-/
import Mathlib.Logic.Relation
import AbiCompat.Compare.Types
import AbiCompat.Proofs.FieldLists

namespace AbiCompat

/-- What becomes of a direct difference of a part. -/
inductive Use where
  | passedOn
  | reported
  | dropped

/-! ## Parts -/

/-- The parts of two signatures. -/
inductive Signature.Part (s t : Signature) : Use → String → String → Prop
  | returns : Part s t .passedOn s.returns t.returns
  | param {p q : Param} : (p, q) ∈ s.params.zip t.params → Part s t .passedOn p.typeId q.typeId
  | argument {a b : String} : s.templateArgs.length = t.templateArgs.length →
      (a, b) ∈ s.templateArgs.zip t.templateArgs → Part s t .dropped a b

/-- The pairs of fields that the comparison of two field lists judges: a field that is gone
and what stands at its offset, a field that is new and what stood at its offset, and
namesakes. -/
inductive Judged (olds news : List Field) : Use → Located → Located → Prop
  | gone {p q : Located} : p ∈ oneSided olds news → firstAt? news p.1.offset = some q →
      Judged olds news .reported p q
  | new {p q : Located} : q ∈ oneSided news olds → firstAt? olds q.1.offset = some p →
      Judged olds news .dropped p q
  | namesakes {p q : Located} : (p, q) ∈ (namedFields olds).common (namedFields news) →
      Judged olds news .reported p q

/-- The parts of two records. -/
inductive RecordLayout.Part (a b : RecordLayout) : Use → String → String → Prop
  | field {use : Use} {p q : Located} : Judged a.fields b.fields use p q →
      Part a b use p.1.typeId q.1.typeId
  | base {x y : Base} : a.bases.length = b.bases.length → (x, y) ∈ a.bases.zip b.bases →
      Part a b .reported x.typeId y.typeId
  | argument {c d : String} : a.templateArgs.length = b.templateArgs.length →
      (c, d) ∈ a.templateArgs.zip b.templateArgs → Part a b .dropped c d

/-- Whether types of the kind stand for a reference to their target. -/
def TypeKind.hasTarget : TypeKind → Bool
  | pointer | lvalueReference | rvalueReference | qualified | array => true
  | record | enum | builtin | function => false

/-- The parts of two types of one kind. -/
inductive TypeDecl.Part (s t : TypeDecl) : Use → String → String → Prop
  | target : s.kind = t.kind → s.kind.hasTarget = true → Part s t .passedOn s.target t.target
  | signature {a b : Signature} {use : Use} {c d : String} : s.shape = .function a →
      t.shape = .function b → a.Part b use c d → Part s t use c d
  | layout {a b : RecordLayout} {use : Use} {c d : String} : s.shape = .record a →
      t.shape = .record b → a.Part b use c d → Part s t use c d

/-! ## Differences that are seen without a look at the parts -/

/-- The number of parameters or of template arguments differs, or one parameter may be left
out on one side only. -/
def Signature.Differs (s t : Signature) : Prop :=
  s.params.length ≠ t.params.length ∨ s.templateArgs.length ≠ t.templateArgs.length
    ∨ ∃ p q, (p, q) ∈ s.params.zip t.params ∧ p.hasDefault ≠ q.hasDefault

/-- What makes two types differ directly by themselves, kind by kind. -/
inductive TypeDecl.Differs (s t : TypeDecl) : Prop
  | kind : s.kind ≠ t.kind → Differs s t
  | builtin {a b : Builtin} : s.shape = .builtin a → t.shape = .builtin b →
      (s.size ≠ t.size ∨ s.alignment ≠ t.alignment ∨ a.isUnsigned ≠ b.isUnsigned
        ∨ a.isIntegral ≠ b.isIntegral) → Differs s t
  | qualified {a b : Qualifiers} : s.shape = .qualified a → t.shape = .qualified b → a ≠ b →
      Differs s t
  | array : s.shape = .array → t.shape = .array →
      (s.size ≠ t.size ∨ s.alignment ≠ t.alignment) → Differs s t
  | enum {a b : EnumLayout} : s.shape = .enum a → t.shape = .enum b → s.linkKey ≠ t.linkKey →
      Differs s t
  | record {a b : RecordLayout} : s.shape = .record a → t.shape = .record b →
      a.isAnonymous = false → b.isAnonymous = false → s.linkKey ≠ t.linkKey → Differs s t
  | function {a b : Signature} : s.shape = .function a → t.shape = .function b → a.Differs b →
      Differs s t

namespace Scope

/-- Both ids resolve, and the new type is not left out. -/
structure Resolves (scope : Scope) (a b : String) (s t : TypeDecl) : Prop where
  old : scope.old.type? a = some s
  new : scope.new.type? b = some t
  kept : scope.policy.ignores t.linkKey = false

/-- The difference of two ids that is seen without a look at other pairs. -/
inductive DiffersHere (scope : Scope) : String × String → Prop
  | unresolved {a b : String} : scope.old.type? a = none ∨ scope.new.type? b = none →
      compareUnresolved scope.policy a b = .unresolved → DiffersHere scope (a, b)
  | types {a b : String} {s t : TypeDecl} : scope.Resolves a b s t → s.Differs t →
      DiffersHere scope (a, b)

/-- The second pair is a part of the first. -/
def Parts (scope : Scope) (use : Use) (p q : String × String) : Prop :=
  ∃ s t, scope.Resolves p.1 p.2 s t ∧ s.Part t use q.1 q.2

/-- The second pair is a part of the first that passes its differences on. -/
abbrev Passes (scope : Scope) : String × String → String × String → Prop :=
  scope.Parts .passedOn

/-- The comparison of the first pair may ask for the second one: a part of two types that do not
differ by themselves, or of two functions, which are looked into all the same. -/
def Opens (scope : Scope) (p q : String × String) : Prop :=
  ∃ use s t, scope.Resolves p.1 p.2 s t ∧ s.Part t use q.1 q.2
    ∧ (s.Differs t → s.kind = .function ∧ t.kind = .function)

theorem Opens.part {scope : Scope} {p q : String × String} (h : scope.Opens p q) :
    ∃ use, scope.Parts use p q := by
  obtain ⟨use, s, t, resolves, part, -⟩ := h
  exact ⟨use, s, t, resolves, part⟩

/-- The difference that the rules give to a pair of ids. -/
inductive DirectlyDiffers (scope : Scope) : String × String → Prop
  | here {p : String × String} : scope.DiffersHere p → DirectlyDiffers scope p
  | through {p q : String × String} : scope.Passes p q → DirectlyDiffers scope q →
      DirectlyDiffers scope p

/-- Two signatures that a caller can tell apart. -/
def SignaturesDiffer (scope : Scope) (s t : Signature) : Prop :=
  s.Differs t ∨ ∃ a b, s.Part t .passedOn a b ∧ scope.DirectlyDiffers (a, b)

/-- A pair leads to another one through parts that pass their differences on. -/
abbrev Leads (scope : Scope) : String × String → String × String → Prop :=
  Relation.ReflTransGen scope.Passes

/-- A pair differs directly when it leads to one that differs by itself. -/
theorem directlyDiffers_iff {scope : Scope} {p : String × String} :
    scope.DirectlyDiffers p ↔ ∃ q, scope.Leads p q ∧ scope.DiffersHere q := by
  constructor
  · intro h
    induction h with
    | here h => exact ⟨_, .refl, h⟩
    | through step _ ih =>
        obtain ⟨q, leads, h⟩ := ih
        exact ⟨q, .head step leads, h⟩
  · rintro ⟨q, leads, h⟩
    induction leads using Relation.ReflTransGen.head_induction_on with
    | refl => exact .here h
    | head step _ ih => exact .through step ih

end Scope

/-! ## The ids of the parts -/

theorem Judged.mem_located {olds news : List Field} {use : Use} {p q : Located}
    (h : Judged olds news use p q) : p ∈ located olds ∧ q ∈ located news := by
  cases h with
  | gone hp hq => exact ⟨mem_of_mem_oneSided hp, mem_of_firstAt? hq⟩
  | new hq hp => exact ⟨mem_of_firstAt? hp, mem_of_mem_oneSided hq⟩
  | namesakes h =>
      obtain ⟨hp, hq⟩ := Catalog.mem_common.mp h
      exact ⟨mem_of_mem_namedFields hp, mem_of_mem_namedFields (Catalog.mem_of_find? hq)⟩

theorem Signature.Part.mem_ids {s t : Signature} {use : Use} {a b : String}
    (h : s.Part t use a b) : a ∈ s.ids ∧ b ∈ t.ids := by
  cases h with
  | returns => simp [Signature.ids]
  | param h =>
      obtain ⟨hp, hq⟩ := List.of_mem_zip h
      simp only [Signature.ids, List.mem_cons, List.mem_append]
      exact ⟨.inr (.inl (List.mem_map_of_mem hp)), .inr (.inl (List.mem_map_of_mem hq))⟩
  | argument _ h =>
      obtain ⟨ha, hb⟩ := List.of_mem_zip h
      simp [Signature.ids, ha, hb]

/-- The ids that a type refers to.  Only a reference is followed to its target. -/
def TypeDecl.refs (t : TypeDecl) : List String :=
  (if t.kind.hasTarget then [t.target] else []) ++ t.shape.ids

theorem TypeDecl.target_mem_refs {t : TypeDecl} (h : t.kind.hasTarget = true) :
    t.target ∈ t.refs := by
  simp [TypeDecl.refs, h]

theorem TypeDecl.mem_refs_of_shape {t : TypeDecl} {x : Shape} {a : String} (h : t.shape = x)
    (mem : a ∈ x.ids) : a ∈ t.refs :=
  List.mem_append_right _ (h ▸ mem)

theorem TypeDecl.mem_ids_of_mem_refs {t : TypeDecl} {a : String} (h : a ∈ t.refs) :
    a ∈ t.ids := by
  rcases List.mem_append.mp h with target | shape
  · split at target
    · cases List.mem_singleton.mp target
      exact List.mem_cons_of_mem _ List.mem_cons_self
    · exact absurd target List.not_mem_nil
  · exact List.mem_cons_of_mem _ (List.mem_cons_of_mem _ shape)

theorem RecordLayout.Part.mem_ids {a b : RecordLayout} {use : Use} {c d : String}
    (h : a.Part b use c d) : c ∈ (Shape.record a).ids ∧ d ∈ (Shape.record b).ids := by
  simp only [Shape.ids, List.mem_append]
  cases h with
  | field judged =>
      obtain ⟨hp, hq⟩ := judged.mem_located
      exact ⟨.inl (.inl (List.mem_map_of_mem (mem_of_mem_located hp))),
        .inl (.inl (List.mem_map_of_mem (mem_of_mem_located hq)))⟩
  | base _ h =>
      obtain ⟨hx, hy⟩ := List.of_mem_zip h
      exact ⟨.inl (.inr (List.mem_map_of_mem hx)), .inl (.inr (List.mem_map_of_mem hy))⟩
  | argument _ h =>
      obtain ⟨ha, hb⟩ := List.of_mem_zip h
      exact ⟨.inr ha, .inr hb⟩

/-- The parts of two types are ids that the types refer to. -/
theorem TypeDecl.Part.mem_refs {s t : TypeDecl} {use : Use} {a b : String}
    (h : s.Part t use a b) : a ∈ s.refs ∧ b ∈ t.refs := by
  cases h with
  | target kind target =>
      exact ⟨TypeDecl.target_mem_refs target, TypeDecl.target_mem_refs (kind ▸ target)⟩
  | signature hs ht part =>
      obtain ⟨ha, hb⟩ := part.mem_ids
      exact ⟨TypeDecl.mem_refs_of_shape hs ha, TypeDecl.mem_refs_of_shape ht hb⟩
  | layout hs ht part =>
      obtain ⟨ha, hb⟩ := part.mem_ids
      exact ⟨TypeDecl.mem_refs_of_shape hs ha, TypeDecl.mem_refs_of_shape ht hb⟩

theorem TypeDecl.Part.mem_ids {s t : TypeDecl} {use : Use} {a b : String}
    (h : s.Part t use a b) : a ∈ s.ids ∧ b ∈ t.ids :=
  ⟨TypeDecl.mem_ids_of_mem_refs h.mem_refs.1, TypeDecl.mem_ids_of_mem_refs h.mem_refs.2⟩

theorem Interface.mem_ids {m : Interface} {id a : String} {t : TypeDecl}
    (found : m.type? id = some t) (h : a ∈ t.ids) : a ∈ m.ids :=
  List.mem_flatMap.mpr ⟨t, Catalog.mem_of_find? found, h⟩

theorem Scope.Resolves.mem_ids {scope : Scope} {a b : String} {s t : TypeDecl} {use : Use}
    {c d : String} (h : scope.Resolves a b s t) (part : s.Part t use c d) :
    c ∈ scope.old.ids ∧ d ∈ scope.new.ids := by
  obtain ⟨hc, hd⟩ := part.mem_ids
  exact ⟨Interface.mem_ids h.old hc, Interface.mem_ids h.new hd⟩

/-! ## What an interface mentions -/

/-- The ids that an interface mentions anywhere, defined or not. -/
def Interface.mentions (m : Interface) : List String :=
  m.ids ++ m.functions.items.flatMap (fun f => f.signature.ids)
    ++ m.globals.items.map GlobalDecl.typeId

namespace Interface

variable {m : Interface} {a b : String} {s t : TypeDecl}

theorem mem_mentions_of_ref (found : m.type? a = some s) (mem : b ∈ s.refs) : b ∈ m.mentions :=
  List.mem_append_left _ (List.mem_append_left _ (mem_ids found (TypeDecl.mem_ids_of_mem_refs mem)))

theorem mem_mentions_of_part (found : m.type? a = some s) {use : Use} {c : String}
    (part : s.Part t use b c) : b ∈ m.mentions :=
  mem_mentions_of_ref found part.mem_refs.1

theorem mem_mentions_of_function {f : FunctionDecl} (mem : f ∈ m.functions.items)
    (used : b ∈ f.signature.ids) : b ∈ m.mentions :=
  List.mem_append_left _ (List.mem_append_right _ (List.mem_flatMap.mpr ⟨f, mem, used⟩))

theorem mem_mentions_of_global {g : GlobalDecl} (mem : g ∈ m.globals.items) :
    g.typeId ∈ m.mentions :=
  List.mem_append_right _ (List.mem_map_of_mem mem)

theorem mem_mentions_of_type (mem : s ∈ m.types.items) : s.id ∈ m.mentions :=
  List.mem_append_left _ (List.mem_append_left _
    (List.mem_flatMap.mpr ⟨s, mem, List.mem_cons_self⟩))

end Interface

/-! ## A thing and itself -/

theorem eq_of_mem_zip_self {α : Type} {xs : List α} {x y : α} (h : (x, y) ∈ xs.zip xs) :
    x = y := by
  rw [List.zip_eq_zipWith, List.zipWith_self, List.mem_map] at h
  obtain ⟨z, -, same⟩ := h
  cases same
  rfl

theorem Signature.Part.eq_of_self {s : Signature} {use : Use} {a b : String}
    (part : s.Part s use a b) : a = b := by
  cases part with
  | returns => rfl
  | param mem => rw [eq_of_mem_zip_self mem]
  | argument _ mem => exact eq_of_mem_zip_self mem

theorem Signature.not_differs_self (s : Signature) : ¬ s.Differs s := by
  rintro (h | h | ⟨p, q, mem, h⟩)
  · exact h rfl
  · exact h rfl
  · exact h (by rw [eq_of_mem_zip_self mem])

/-- Two ids that do not resolve are the same or not, and nothing in between. -/
theorem compareUnresolved_cases (policy : Policy) (a b : String) :
    compareUnresolved policy a b = .same ∨ compareUnresolved policy a b = .unresolved := by
  unfold compareUnresolved
  split
  · exact .inl rfl
  · split
    · exact .inl rfl
    · exact .inr rfl

theorem compareUnresolved_self (policy : Policy) (a : String) :
    compareUnresolved policy a a = .same := by
  unfold compareUnresolved
  split
  · rfl
  · rw [if_pos (.inl rfl)]

end AbiCompat
