/-
# Types that exported names do not reach do not count

A comparison of exported names looks up the ids that the names of both versions are written in, and
from there on the ids that the types found refer to.

## What is proved

Two pairs of versions with the same names, and with the same types under these ids, have the same
outcome, to the last word, whatever other types they have:

    SameInUse  →  both comparisons are equal, if only exported names are compared

The condition is on the ids in use only (`InUse`), and on both versions at once: an id that one
version reaches and the other one does not is no matter, unless it is the id of a type that both
look up.

## How

It is the theory of renamings with no id renamed.  A walk over scopes that are the same under a set
of pairs, where the set is closed under parts, goes the same way step by step; ids in use are
closed under what their types refer to.

## What is not

Where all types are compared, every type counts, and nothing of this holds.  The example is a
record of one `int` that grows, beside a record that nothing refers to.
-/
import AbiCompat.Proofs.Renaming.Walks

namespace AbiCompat

/-! ## Ids in use -/

/-- The ids that one comes to from given ones. -/
inductive Interface.Reaches (m : Interface) (start : String → Prop) : String → Prop
  | start {id : String} : start id → Reaches m start id
  | ref {id id' : String} {t : TypeDecl} : Reaches m start id → m.type? id = some t →
      id' ∈ t.refs → Reaches m start id'

theorem Interface.Reaches.within {m : Interface} {start P : String → Prop}
    (starts : ∀ {id}, start id → P id)
    (refs : ∀ {id id' t}, P id → m.type? id = some t → id' ∈ t.refs → P id') {id : String}
    (h : m.Reaches start id) : P id := by
  induction h with
  | start h => exact starts h
  | ref _ found mem ih => exact refs ih found mem

/-- The ids that the old one of two declarations is written in. -/
def Entry.oldIds : Entry → List String
  | function f _ => f.signature.ids
  | global f _ => [f.typeId]
  | type s _ => [s.id]

/-- The ids that the new one of two declarations is written in. -/
def Entry.newIds : Entry → List String
  | function _ g => g.signature.ids
  | global _ g => [g.typeId]
  | type _ t => [t.id]

theorem Entry.Part.mem_ids {e : Entry} {use : Use} {a b : String} (part : e.Part use a b) :
    a ∈ e.oldIds ∧ b ∈ e.newIds := by
  cases part with
  | signature part => exact part.mem_ids
  | global | type => exact ⟨List.mem_singleton_self _, List.mem_singleton_self _⟩

namespace Scope

/-- The ids of the old version that exported names reach. -/
def OldInUse (scope : Scope) : String → Prop :=
  scope.old.Reaches fun id => ∃ e ∈ scope.exports, id ∈ e.oldIds

/-- The ids of the new version that exported names reach. -/
def NewInUse (scope : Scope) : String → Prop :=
  scope.new.Reaches fun id => ∃ e ∈ scope.exports, id ∈ e.newIds

/-- Both ids of the pair are in use. -/
def InUse (scope : Scope) (p : String × String) : Prop :=
  scope.OldInUse p.1 ∧ scope.NewInUse p.2

theorem inUse_of_export {scope : Scope} {e : Entry} (listed : e ∈ scope.exports) {use : Use}
    {a b : String} (part : e.Part use a b) : scope.InUse (a, b) := by
  obtain ⟨old, new⟩ := part.mem_ids
  exact ⟨.start ⟨e, listed, old⟩, .start ⟨e, listed, new⟩⟩

/-- Under the ids in use the second scope has the types of the first. -/
structure SameInUse (scope scope' : Scope) : Prop where
  policy : scope'.policy = scope.policy
  old : ∀ id, scope.OldInUse id → scope'.old.type? id = scope.old.type? id
  new : ∀ id, scope.NewInUse id → scope'.new.type? id = scope.new.type? id

/-- The two scopes are the same to comparisons of ids in use, with no id renamed. -/
theorem SameInUse.sameUnder {scope scope' : Scope} (same : scope.SameInUse scope') :
    scope.SameUnder .none scope.OldInUse scope.NewInUse scope' where
  old :=
    { refs := .ref
      types := fun {id} used => by simpa [Renaming.none] using same.old id used
      apart := fun _ _ same => same }
  new :=
    { refs := .ref
      types := fun {id} used => by simpa [Renaming.none] using same.new id used
      apart := fun _ _ same => same }
  ignores key := by rw [same.policy]
  unresolved _ _ := by
    rw [same.policy]
    rfl

end Scope

/-! ## The same names -/

/-- Two versions of the same names; they may differ in their types. -/
structure Interface.SameNames (m m' : Interface) : Prop where
  functions : m'.functions = m.functions
  globals : m'.globals = m.globals
  functionSymbols : m'.functionSymbols = m.functionSymbols
  objectSymbols : m'.objectSymbols = m.objectSymbols

namespace Scope

variable {scope scope' : Scope}

/-- Two scopes of the same names, under one policy. -/
structure SameNames (scope scope' : Scope) : Prop where
  policy : scope'.policy = scope.policy
  old : scope.old.SameNames scope'.old
  new : scope.new.SameNames scope'.new

theorem SameNames.holder (names : scope.SameNames scope') (d : Direction) :
    (scope.holder d).SameNames (scope'.holder d) := by
  cases d with
  | removed => exact names.old
  | added => exact names.new

theorem SameNames.other (names : scope.SameNames scope') (d : Direction) :
    (scope.other d).SameNames (scope'.other d) := by
  cases d with
  | removed => exact names.new
  | added => exact names.old

theorem SameNames.loneFunctions (names : scope.SameNames scope') (d : Direction) :
    scope'.loneFunctions d = scope.loneFunctions d := by
  have own := names.holder d
  have others := names.other d
  simp only [Scope.loneFunctions, listsName]
  rw [names.policy, own.functions, own.functionSymbols, others.functions, others.functionSymbols]

theorem SameNames.loneGlobals (names : scope.SameNames scope') (d : Direction) :
    scope'.loneGlobals d = scope.loneGlobals d := by
  have own := names.holder d
  have others := names.other d
  simp only [Scope.loneGlobals, listsName]
  rw [names.policy, own.globals, own.objectSymbols, others.globals, others.objectSymbols]

theorem SameNames.loneChanges (names : scope.SameNames scope')
    (exportedOnly : scope.policy.checkAll = false) : scope'.loneChanges = scope.loneChanges := by
  simp only [Scope.loneChanges, names.policy, exportedOnly, Bool.false_eq_true, if_false,
    names.loneFunctions, names.loneGlobals]

theorem SameNames.symbolChanges (names : scope.SameNames scope') (kind : SymbolKind)
    (d : Direction) : scope'.symbolChanges kind d = scope.symbolChanges kind d := by
  have own := names.holder d
  have others := names.other d
  unfold Scope.symbolChanges symbolsOf
  rw [names.policy, own.functionSymbols, own.objectSymbols, others.functionSymbols,
    others.objectSymbols]

theorem SameNames.allSymbolChanges (names : scope.SameNames scope') :
    scope'.allSymbolChanges = scope.allSymbolChanges := by
  simp only [Scope.allSymbolChanges, names.symbolChanges]

theorem SameInUse.walk (same : scope.SameInUse scope') (names : scope.SameNames scope')
    (exportedOnly : scope.policy.checkAll = false) :
    scope'.walk.run .start = scope.walk.run .start := by
  have exported : scope'.walkExports.run .start = scope.walkExports.run .start :=
    same.sameUnder.walkExports_eq (.of_eq names.old.functions names.old.globals)
      (.of_eq names.new.functions names.new.globals) fun _ listed {_ _ _} part =>
        inUse_of_export listed part
  simp only [Scope.walk, names.policy, exportedOnly, Bool.false_eq_true, if_false, StateT.run_bind,
    exported]

end Scope

/-- A comparison of exported names does not hang on types that they do not reach. -/
theorem compare_eq_of_sameInUse {old new old' new' : Interface} {policy : Policy}
    (exportedOnly : policy.checkAll = false) (oldNames : old.SameNames old')
    (newNames : new.SameNames new')
    (oldTypes : ∀ id, (Scope.mk old new policy).OldInUse id → old'.type? id = old.type? id)
    (newTypes : ∀ id, (Scope.mk old new policy).NewInUse id → new'.type? id = new.type? id) :
    (compare old' new' policy).verdict = (compare old new policy).verdict
      ∧ (compare old' new' policy).findings = (compare old new policy).findings
      ∧ (compare old' new' policy).lone = (compare old new policy).lone
      ∧ (compare old' new' policy).symbols = (compare old new policy).symbols := by
  have names : (Scope.mk old new policy).SameNames ⟨old', new', policy⟩ :=
    ⟨rfl, oldNames, newNames⟩
  have same : (Scope.mk old new policy).SameInUse ⟨old', new', policy⟩ :=
    ⟨rfl, oldTypes, newTypes⟩
  have findings : (compare old' new' policy).findings = (compare old new policy).findings := by
    rw [findings_compare, findings_compare, same.walk names exportedOnly]
  have lone : (compare old' new' policy).lone = (compare old new policy).lone :=
    names.loneChanges exportedOnly
  have symbols : (compare old' new' policy).symbols = (compare old new policy).symbols :=
    names.allSymbolChanges
  refine ⟨?_, findings, lone, symbols⟩
  rw [verdict_compare, verdict_compare, findings, lone, symbols]

/-- A global variable that is a record of one `int`, beside a record that nothing refers to. -/
def besideUnused (int unused : UInt64) : Interface :=
  { Interface.empty with
    types := .ofList [
      ⟨"i", "int", "", "int", "", int, 4, .builtin ⟨false, true⟩⟩,
      ⟨"r", "r", "", "r", "", int, 4,
        .record ⟨[⟨"x", "i", 0, .pub⟩], [], [], .structRecord, false, [], .pub⟩⟩,
      ⟨"u", "u", "", "u", "", unused, 4,
        .record ⟨[⟨"y", "i", unused, .pub⟩], [], [], .structRecord, false, [], .pub⟩⟩]
    globals := .ofList [⟨"g", "", "g", "r", .pub⟩] }

theorem besideUnused_sameNames (int unused unused' : UInt64) :
    (besideUnused int unused).SameNames (besideUnused int unused') :=
  ⟨rfl, rfl, rfl, rfl⟩

section BesideUnused

variable {int int' unused unused' : UInt64} {id : String}

theorem besideUnused_record : (besideUnused int unused).type? "r"
    = some ⟨"r", "r", "", "r", "", int, 4,
      .record ⟨[⟨"x", "i", 0, .pub⟩], [], [], .structRecord, false, [], .pub⟩⟩ := by
  simp [besideUnused, Interface.type?, Catalog.find?_ofList]

theorem besideUnused_int : (besideUnused int unused).type? "i"
    = some ⟨"i", "int", "", "int", "", int, 4, .builtin ⟨false, true⟩⟩ := by
  simp [besideUnused, Interface.type?, Catalog.find?_ofList]

theorem besideUnused_reaches {start : String → Prop} (starts : ∀ {id}, start id → id = "r")
    (h : (besideUnused int unused).Reaches start id) : id = "r" ∨ id = "i" := by
  refine h.within (P := fun id => id = "r" ∨ id = "i") (fun h => .inl (starts h)) ?_
  rintro id id' t (rfl | rfl) found mem
  · rw [besideUnused_record] at found
    cases found
    simp [TypeDecl.refs, TypeDecl.kind, Shape.kind, TypeKind.hasTarget, Shape.ids] at mem
    exact .inr mem
  · rw [besideUnused_int] at found
    cases found
    simp [TypeDecl.refs, TypeDecl.kind, Shape.kind, TypeKind.hasTarget, Shape.ids] at mem

theorem besideUnused_same (h : id = "r" ∨ id = "i") :
    (besideUnused int unused').type? id = (besideUnused int unused).type? id := by
  rcases h with rfl | rfl
  · rw [besideUnused_record, besideUnused_record]
  · rw [besideUnused_int, besideUnused_int]

theorem besideUnused_starts {ids : Entry → List String}
    (written : ∀ g, ids (.global g g) = [g.typeId])
    (h : ∃ e ∈ (Scope.mk (besideUnused int unused) (besideUnused int' unused) .plain).exports,
      id ∈ ids e) : id = "r" := by
  have exports : (Scope.mk (besideUnused int unused) (besideUnused int' unused) .plain).exports
      = [.global ⟨"g", "", "g", "r", .pub⟩ ⟨"g", "", "g", "r", .pub⟩] := rfl
  obtain ⟨e, listed, mem⟩ := h
  rw [exports] at listed
  cases List.mem_singleton.mp listed
  rw [written] at mem
  exact List.mem_singleton.mp mem

end BesideUnused

/-- A record in use grows; what becomes of the one that is not does not count. -/
theorem besideUnused_compare :
    Policy.plain.checkAll = false
      ∧ (besideUnused 4 4).SameNames (besideUnused 4 16)
      ∧ (besideUnused 8 4).SameNames (besideUnused 8 32)
      ∧ (∀ id, (Scope.mk (besideUnused 4 4) (besideUnused 8 4) .plain).OldInUse id →
        (besideUnused 4 16).type? id = (besideUnused 4 4).type? id)
      ∧ (∀ id, (Scope.mk (besideUnused 4 4) (besideUnused 8 4) .plain).NewInUse id →
        (besideUnused 8 32).type? id = (besideUnused 8 4).type? id)
      ∧ (compare (besideUnused 4 16) (besideUnused 8 32) .plain).verdict
        = (compare (besideUnused 4 4) (besideUnused 8 4) .plain).verdict
      ∧ (compare (besideUnused 4 16) (besideUnused 8 32) .plain).findings
        = (compare (besideUnused 4 4) (besideUnused 8 4) .plain).findings
      ∧ (compare (besideUnused 4 4) (besideUnused 8 4) .plain).findings ≠ [] := by
  have old (id : String) (h : (Scope.mk (besideUnused 4 4) (besideUnused 8 4) .plain).OldInUse id) :
      (besideUnused 4 16).type? id = (besideUnused 4 4).type? id :=
    besideUnused_same (besideUnused_reaches (besideUnused_starts fun _ => rfl) h)
  have new (id : String) (h : (Scope.mk (besideUnused 4 4) (besideUnused 8 4) .plain).NewInUse id) :
      (besideUnused 8 32).type? id = (besideUnused 8 4).type? id :=
    besideUnused_same (besideUnused_reaches (besideUnused_starts fun _ => rfl) h)
  have oldNames := besideUnused_sameNames 4 4 16
  have newNames := besideUnused_sameNames 8 4 32
  obtain ⟨verdict, findings, -, -⟩ := compare_eq_of_sameInUse rfl oldNames newNames old new
  exact ⟨rfl, oldNames, newNames, old, new, verdict, findings, by decide⟩

end AbiCompat
