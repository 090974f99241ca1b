/-
# Interfaces that evolve

A new version may have more of everything, and types that have evolved: fields under other names
and fields where there were none, enumerations with more values, records and fields that more
callers may use.  `Interface.Evolves` says so, and for every policy:

    old.Evolves new → the comparison is accepted

where an outcome is accepted if of what both versions have only enumerations with new values are
found, everything else that is found was added, and the verdict is neither incompatible nor tells
of symbols that are gone.

## How

The walk holds every id of the old version against itself and meets none that is new, because an id
that the old version mentions is resolved in both versions or in neither: what is new is mentioned
by nothing old.  So the pairs of an id with itself are an agreement, and the mild changes are
enumerations with new values.

User-defined types are gone through by linker set key, not by id, and of several types with one key
the last counts.  That both versions have the same type last (`id_eq_of_byKey`) is why new types
have to have new keys.

## What evolution leaves out

Changes of size and alignment, of the order of fields, of bases, virtual tables and template
arguments.  Some of them, the order of fields for one, would not be found either; but callers may
rely on them.
-/
import AbiCompat.Proofs.Evolution.Types

namespace AbiCompat

/-- The fields of every record can be told apart by offsets and names. -/
def Interface.DistinctFields (m : Interface) : Prop :=
  ∀ t ∈ m.types.items, t.DistinctFields

/-- All that the old version has is there, with types that have evolved, and the types that
are new have ids and keys that the old version knows nothing of. -/
structure Interface.Evolves (m m' : Interface) : Prop where
  types : ∀ s ∈ m.types.items, ∃ t, m'.type? s.id = some t ∧ s.Evolves t
  newTypes : ∀ t ∈ m'.types.items, m.type? t.id = none →
    t.id ∉ m.mentions ∧ ∀ s ∈ m.types.items, s.linkKey ≠ t.linkKey
  functions : ∀ f ∈ m.functions.items, ∃ file,
    m'.functions.find? f.linkKey = some { f with sourceFile := file }
  globals : ∀ g ∈ m.globals.items, ∃ file,
    m'.globals.find? g.linkKey = some { g with sourceFile := file }
  functionSymbols : ∀ s ∈ m.functionSymbols.items, m'.functionSymbols.find? s.name = some s
  objectSymbols : ∀ s ∈ m.objectSymbols.items, m'.objectSymbols.find? s.name = some s

/-- Of every type of the old version there is what has become of it, and the types that are new
have ids and keys that the old version knows nothing of. -/
structure Interface.TypesBecome (m m' : Interface) (Becomes : TypeDecl → TypeDecl → Prop) :
    Prop where
  types : ∀ s ∈ m.types.items, ∃ t, m'.type? s.id = some t ∧ Becomes s t
  newTypes : ∀ t ∈ m'.types.items, m.type? t.id = none →
    t.id ∉ m.mentions ∧ ∀ s ∈ m.types.items, s.linkKey ≠ t.linkKey

namespace Interface

variable {m m' : Interface} {a : String} {s t : TypeDecl}

theorem Evolves.becomes (h : m.Evolves m') : m.TypesBecome m' TypeDecl.Evolves :=
  ⟨h.types, h.newTypes⟩

namespace TypesBecome

variable {Becomes Becomes' : TypeDecl → TypeDecl → Prop}

theorem mono (h : m.TypesBecome m' Becomes) (weaker : ∀ {s t}, Becomes s t → Becomes' s t) :
    m.TypesBecome m' Becomes' where
  types s mem := by
    obtain ⟨t, found, becomes⟩ := h.types s mem
    exact ⟨t, found, weaker becomes⟩
  newTypes := h.newTypes

theorem type_of_old (h : m.TypesBecome m' Becomes) (found : m.type? a = some s) :
    ∃ t, m'.type? a = some t ∧ Becomes s t := by
  obtain ⟨t, ht, becomes⟩ := h.types s (Catalog.mem_of_find? found)
  rw [Catalog.key_of_find? found] at ht
  exact ⟨t, ht, becomes⟩

theorem type?_eq_none (h : m.TypesBecome m' Becomes) (mentioned : a ∈ m.mentions)
    (missing : m.type? a = none) : m'.type? a = none := by
  cases found : m'.type? a with
  | none => rfl
  | some t =>
      have same := Catalog.key_of_find? found
      rw [← same] at missing mentioned
      exact absurd mentioned (h.newTypes t (Catalog.mem_of_find? found) missing).1

theorem of_found (h : m.TypesBecome m' Becomes) (old : m.type? a = some s)
    (new : m'.type? a = some t) : Becomes s t := by
  obtain ⟨t', ht', becomes⟩ := h.type_of_old old
  cases ht'.symm.trans new
  exact becomes

end TypesBecome

end Interface

/-- What stays of a type whatever becomes of its fields and its values. -/
structure TypeDecl.Remains (s t : TypeDecl) : Prop where
  linkKey : t.linkKey = s.linkKey
  name : t.name = s.name
  isUserDefined : t.isUserDefined = s.isUserDefined
  record? : t.record?.isSome = s.record?.isSome
  enum? : t.enum?.isSome = s.enum?.isSome

theorem TypeDecl.Evolves.remains {s t : TypeDecl} (h : s.Evolves t) : s.Remains t := by
  have shape := h.shape
  refine ⟨h.linkKey, h.name, ?_, ?_, ?_⟩
  · unfold TypeDecl.isUserDefined
    generalize s.shape = x at shape
    generalize t.shape = y at shape
    cases shape with
    | same => rfl
    | record evolves => simp [evolves.isAnonymous]
    | enum => rfl
  · unfold TypeDecl.record?
    generalize s.shape = x at shape
    generalize t.shape = y at shape
    cases shape <;> rfl
  · unfold TypeDecl.enum?
    generalize s.shape = x at shape
    generalize t.shape = y at shape
    cases shape <;> rfl

/-- All types of the old version are there, each under its key and its name. -/
abbrev Interface.TypesRemain (m m' : Interface) : Prop := m.TypesBecome m' TypeDecl.Remains

theorem Interface.Evolves.remain {m m' : Interface} (h : m.Evolves m') : m.TypesRemain m' :=
  h.becomes.mono TypeDecl.Evolves.remains

theorem Interface.TypesBecome.typeName_eq {m m' : Interface} {a : String}
    (h : m.TypesRemain m') (mentioned : a ∈ m.mentions) : m'.typeName a = m.typeName a := by
  unfold typeName
  cases found : m.type? a with
  | none => rw [h.type?_eq_none mentioned found]
  | some s =>
      obtain ⟨t, ht, remains⟩ := h.type_of_old found
      rw [ht]
      exact remains.name

/-! ## The agreement of two versions

Functions and global variables that are there as they were, wherever they are declared now, agree.
-/

/-- An enumeration that has new values. -/
def Change.Extends (c : Change) : Prop := ∃ e, c = .enum e ∧ e.isExtension = true

section Versions

variable {m m' : Interface} {policy : Policy}

/-- The pairs of an id that the old version mentions and itself. -/
def Interface.Diagonal (m : Interface) (p : String × String) : Prop :=
  p.1 = p.2 ∧ p.1 ∈ m.mentions

theorem Interface.mem_mentions_of_enum {id : String} {s : TypeDecl} {a : EnumLayout}
    (found : m.type? id = some s) (shape : s.shape = .enum a) : a.underlying ∈ m.mentions := by
  refine List.mem_append_left _ (List.mem_append_left _ (mem_ids found ?_))
  simp [TypeDecl.ids, Shape.ids, shape]

theorem Interface.Evolves.agreement (h : m.Evolves m') (distinct : m.DistinctFields) :
    Scope.Agreement ⟨m, m', policy⟩ Change.Extends m.Diagonal where
  parts {use p q} diagonal := by
    obtain ⟨a, b⟩ := p
    obtain ⟨same, mentioned⟩ := diagonal
    rintro ⟨s, t, resolves, part⟩
    cases same
    have evolves := h.becomes.of_found resolves.old resolves.new
    refine ⟨?_, mem_mentions_of_part resolves.old part⟩
    exact evolves.eq_of_part (distinct s (Catalog.mem_of_find? resolves.old)) part
  alike {p} diagonal := by
    obtain ⟨a, b⟩ := p
    obtain ⟨same, mentioned⟩ := diagonal
    cases same
    intro differs
    cases differs with
    | unresolved _ out =>
        rw [compareUnresolved_self] at out
        cases out
    | types resolves differs =>
        exact (h.becomes.of_found resolves.old resolves.new).not_differs differs
  records diagonal resolves hs ht := by
    obtain ⟨same, mentioned⟩ := diagonal
    cases same
    exact (h.becomes.of_found resolves.old resolves.new).recordsAgree
      (distinct _ (Catalog.mem_of_find? resolves.old)) hs ht
  enums {i j s t a b} diagonal resolves hs ht := by
    obtain ⟨same, -⟩ := diagonal
    cases same
    have shape := (h.becomes.of_found resolves.old resolves.new).shape
    rw [hs, ht] at shape
    have storage := h.remain.typeName_eq (mem_mentions_of_enum resolves.old hs)
    exact ⟨shape.of_enum.not_isIncompatible storage, fun extension => ⟨_, rfl, extension⟩⟩

/-- Functions and global variables that are there as they were, wherever they are declared now,
agree. -/
theorem Scope.exports_agree
    (functions : ∀ f ∈ m.functions.items, ∃ file,
      m'.functions.find? f.linkKey = some { f with sourceFile := file })
    (globals : ∀ g ∈ m.globals.items, ∃ file,
      m'.globals.find? g.linkKey = some { g with sourceFile := file })
    {e : Entry} (mem : e ∈ Scope.exports ⟨m, m', policy⟩) : e.Agrees m.Diagonal := by
  rcases Scope.mem_exports.mp mem with ⟨f, g, common, rfl⟩ | ⟨f, g, common, rfl⟩
  · obtain ⟨file, found⟩ := functions f common.old
    cases common.new.symm.trans found
    refine .function (Signature.not_differs_self _) (fun part => ⟨part.eq_of_self, ?_⟩) rfl
    exact Interface.mem_mentions_of_function common.old part.mem_ids.1
  · obtain ⟨file, found⟩ := globals f common.old
    cases common.new.symm.trans found
    exact .global ⟨rfl, Interface.mem_mentions_of_global common.old⟩ rfl

theorem Interface.Evolves.exports_agree (h : m.Evolves m') {e : Entry}
    (mem : e ∈ Scope.exports ⟨m, m', policy⟩) : e.Agrees m.Diagonal :=
  Scope.exports_agree h.functions h.globals mem

end Versions

/-! ## User-defined types by their keys

A user-defined type of the old version is one in the new version, and a user-defined type of a key
of the old version was one there.  So no user-defined type goes. -/

section UserTypes

variable {m m' : Interface} {policy : Policy} {select : TypeDecl → Bool} {s t : TypeDecl}

/-- The user-defined types of a kind by their keys. -/
def Interface.byKey (select : TypeDecl → Bool) (m : Interface) : Catalog TypeDecl.linkKey :=
  .ofList (m.userDefined.filter select)

variable (stays : ∀ {s t : TypeDecl}, s.Remains t → select t = select s)
include stays

theorem Interface.TypesBecome.userDefined (h : m.TypesRemain m')
    (mem : s ∈ m.userDefined.filter select) : ∃ t ∈ m'.userDefined.filter select,
      m'.type? s.id = some t ∧ s.Remains t := by
  obtain ⟨listed, defined, selected⟩ := Interface.mem_userDefined.mp mem
  obtain ⟨t, found, remains⟩ := h.types s listed
  refine ⟨t, Interface.mem_userDefined.mpr ⟨Catalog.mem_of_find? found, ?_, ?_⟩, found, remains⟩
  · rw [remains.isUserDefined, defined]
  · rw [stays remains, selected]

theorem Interface.TypesBecome.userDefined_old (h : m.TypesRemain m')
    (mem : t ∈ m'.userDefined.filter select) (known : s ∈ m.types.items)
    (key : s.linkKey = t.linkKey) : ∃ r ∈ m.userDefined.filter select, r.id = t.id
      ∧ r.linkKey = t.linkKey := by
  obtain ⟨listed, defined, selected⟩ := Interface.mem_userDefined.mp mem
  cases found : m.type? t.id with
  | none => exact absurd key ((h.newTypes t listed found).2 s known)
  | some r =>
      have remains := h.of_found found (Catalog.find?_key listed)
      refine ⟨r, Interface.mem_userDefined.mpr ⟨Catalog.mem_of_find? found, ?_, ?_⟩,
        Catalog.key_of_find? found, remains.linkKey.symm⟩
      · rw [← remains.isUserDefined, defined]
      · rw [← stays remains, selected]

/-- Of one key, the two versions have the same id last. -/
theorem Interface.TypesBecome.id_eq_of_byKey (h : m.TypesRemain m') {k : String}
    (old : (m.byKey select).find? k = some s) (new : (m'.byKey select).find? k = some t) :
    s.id = t.id := by
  obtain ⟨hs, keyS, lastS⟩ := Catalog.last_of_find?_ofList m.userDefined_ascending old
  obtain ⟨ht, keyT, lastT⟩ := Catalog.last_of_find?_ofList m'.userDefined_ascending new
  obtain ⟨s', hs', found, remains⟩ := h.userDefined stays hs
  obtain ⟨r, hr, id, key⟩ := h.userDefined_old stays ht (Interface.mem_userDefined.mp hs).1
    (keyS.trans keyT.symm)
  -- were the two not one, each of them would come before the other one
  rcases lastT s' hs' (remains.linkKey.trans keyS) with rfl | before
  · exact (Catalog.key_of_find? found).symm
  rcases lastS r hr (key.trans keyT) with rfl | before'
  · exact id
  rw [Catalog.key_of_find? found] at before
  rw [id] at before'
  exact absurd before' (String.lt_asymm before)

theorem Interface.TypesBecome.byKey_without (h : m.TypesRemain m') :
    (m.byKey select).without (m'.byKey select) = [] := by
  refine List.filter_eq_nil_iff.mpr ?_
  intro s mem
  obtain ⟨t, ht, -, remains⟩ := h.userDefined stays (Catalog.mem_of_mem_ofList mem)
  have there : (m'.byKey select).find? s.linkKey ≠ none := by
    intro gone
    exact Catalog.find?_ofList_eq_none.mp gone t ht remains.linkKey
  rw [Catalog.contains, Option.isSome_iff_ne_none.mpr there]
  exact Bool.false_ne_true

theorem Interface.TypesBecome.keptPairs_agree (h : m.TypesRemain m')
    (mem : (s, t) ∈ Scope.keptPairs ⟨m, m', policy⟩ TypeDecl.linkKey
      ((m.byKey select).common (m'.byKey select))) :
    (Entry.type s t).Agrees m.Diagonal := by
  obtain ⟨old, new, -⟩ := Scope.mem_keptPairs.mp mem
  have listed := (Interface.mem_userDefined.mp (Catalog.mem_of_mem_ofList old)).1
  exact .type ⟨h.id_eq_of_byKey stays (Catalog.find?_key old) new, mem_mentions_of_type listed⟩

end UserTypes

/-! ## What evolution is found to be

Nothing goes: no function, no global variable, no symbol, no record with a name, no
enumeration.  What is listed is therefore new, and said to be so. -/

section Accepted

variable {m m' : Interface} {policy : Policy}

theorem Interface.TypesBecome.userTypes_agree (h : m.TypesRemain m') {e : Entry}
    (mem : e ∈ Scope.userTypes ⟨m, m', policy⟩) : e.Agrees m.Diagonal := by
  rw [Scope.userTypes, List.mem_append, List.mem_map, List.mem_map] at mem
  rcases mem with ⟨⟨s, t⟩, mem, rfl⟩ | ⟨⟨s, t⟩, mem, rfl⟩
  · exact h.keptPairs_agree TypeDecl.Remains.record? mem
  · exact h.keptPairs_agree TypeDecl.Remains.enum? mem

theorem Scope.direction_of_mem_lone {scope : Scope} {c : LoneChange} {d : Direction}
    (mem : c ∈ scope.loneFunctions d ∨ c ∈ scope.loneGlobals d ∨ c ∈ scope.loneRecords d
      ∨ c ∈ scope.loneEnums d) : c.direction = d := by
  rcases mem with mem | mem | mem | mem
  · obtain ⟨f, -, rfl⟩ := List.mem_map.mp mem
    rfl
  · obtain ⟨g, -, rfl⟩ := List.mem_map.mp mem
    rfl
  · obtain ⟨t, -, found⟩ := List.mem_filterMap.mp mem
    obtain ⟨layout, -, rfl⟩ := Option.map_eq_some_iff.mp found
    rfl
  · obtain ⟨t, -, found⟩ := List.mem_filterMap.mp mem
    obtain ⟨layout, -, rfl⟩ := Option.map_eq_some_iff.mp found
    rfl

theorem Interface.Evolves.functions_without (h : m.Evolves m') :
    m.functions.without m'.functions = [] :=
  Catalog.without_eq_nil fun f mem => (h.functions f mem).elim fun _ found => ⟨_, found⟩

theorem Interface.Evolves.globals_without (h : m.Evolves m') :
    m.globals.without m'.globals = [] :=
  Catalog.without_eq_nil fun g mem => (h.globals g mem).elim fun _ found => ⟨_, found⟩

theorem Interface.Evolves.symbols_without (h : m.Evolves m') (kind : SymbolKind) :
    (Scope.symbolsOf m kind).without (Scope.symbolsOf m' kind) = [] := by
  cases kind with
  | function => exact Catalog.without_eq_nil fun s mem => ⟨s, h.functionSymbols s mem⟩
  | object => exact Catalog.without_eq_nil fun s mem => ⟨s, h.objectSymbols s mem⟩

theorem Interface.TypesBecome.records_without (h : m.TypesRemain m') :
    (Scope.recordsByKey m).without (Scope.recordsByKey m') = [] :=
  h.byKey_without TypeDecl.Remains.record?

theorem Interface.TypesBecome.enums_without (h : m.TypesRemain m') :
    (Scope.enumsByKey m).without (Scope.enumsByKey m') = [] :=
  h.byKey_without TypeDecl.Remains.enum?

theorem Interface.Evolves.lone_added (h : m.Evolves m') {c : LoneChange}
    (mem : c ∈ Scope.loneChanges ⟨m, m', policy⟩) : c.direction = .added := by
  have functions : Scope.loneFunctions ⟨m, m', policy⟩ .removed = [] := by
    simp [Scope.loneFunctions, Scope.holder, Scope.other, h.functions_without]
  have globals : Scope.loneGlobals ⟨m, m', policy⟩ .removed = [] := by
    simp [Scope.loneGlobals, Scope.holder, Scope.other, h.globals_without]
  have records : Scope.loneRecords ⟨m, m', policy⟩ .removed = [] := by
    simp [Scope.loneRecords, Scope.loneTypes, Scope.holder, Scope.other, h.remain.records_without]
  have enums : Scope.loneEnums ⟨m, m', policy⟩ .removed = [] := by
    simp [Scope.loneEnums, Scope.loneTypes, Scope.holder, Scope.other, h.remain.enums_without]
  unfold Scope.loneChanges at mem
  rw [functions, globals, records, enums] at mem
  refine @Scope.direction_of_mem_lone ⟨m, m', policy⟩ c .added ?_
  split at mem
  · simp only [List.nil_append, List.append_nil, List.mem_append] at mem
    rcases mem with ((mem | mem) | mem) | mem
    · exact .inl mem
    · exact .inr (.inl mem)
    · exact .inr (.inr (.inl mem))
    · exact .inr (.inr (.inr mem))
  · simp only [List.nil_append, List.append_nil, List.mem_append] at mem
    rcases mem with mem | mem
    · exact .inl mem
    · exact .inr (.inl mem)

theorem Interface.Evolves.symbols_added (h : m.Evolves m') {c : SymbolChange}
    (mem : c ∈ Scope.allSymbolChanges ⟨m, m', policy⟩) : c.direction = .added := by
  have none (kind : SymbolKind) : Scope.symbolChanges ⟨m, m', policy⟩ kind .removed = [] := by
    simp [Scope.symbolChanges, Scope.holder, Scope.other, h.symbols_without]
  unfold Scope.allSymbolChanges at mem
  rw [none, none, List.nil_append, List.append_nil, List.mem_append] at mem
  rcases mem with mem | mem
  · obtain ⟨s, -, rfl⟩ := List.mem_map.mp mem
    rfl
  · obtain ⟨s, -, rfl⟩ := List.mem_map.mp mem
    rfl

/-- Whether a new version is accepted: of what both versions have, only enumerations with new
values are found, and nothing is gone. -/
structure Outcome.Accepted (o : Outcome) : Prop where
  findings : ∀ f ∈ o.findings, f.change.Extends
  lone : ∀ c ∈ o.lone, c.direction = .added
  symbols : ∀ c ∈ o.symbols, c.direction = .added
  compatible : o.verdict.isIncompatible = false
  symbolsKept : o.verdict.symbolsGone = false

theorem Change.Extends.isIncompatible {c : Change} (h : c.Extends) : c.isIncompatible = false := by
  obtain ⟨e, rfl, extension⟩ := h
  rw [EnumChange.isExtension, Bool.and_eq_true, Bool.not_eq_true'] at extension
  exact extension.1

/-- A new version that has evolved from the old one is accepted, by every policy. -/
theorem accepted_of_evolves (m m' : Interface) (policy : Policy) (distinct : m.DistinctFields)
    (evolves : m.Evolves m') : (compare m m' policy).Accepted := by
  have findings : ∀ f ∈ (compare m m' policy).findings, f.change.Extends :=
    (evolves.agreement distinct).mild_of_mem_findings (fun _ => evolves.exports_agree)
      (fun _ => evolves.remain.userTypes_agree)
  have lone : ∀ c ∈ (compare m m' policy).lone, c.direction = .added :=
    fun _ => evolves.lone_added
  have symbols : ∀ c ∈ (compare m m' policy).symbols, c.direction = .added :=
    fun _ => evolves.symbols_added
  refine ⟨findings, lone, symbols, ?_, ?_⟩
  · rw [verdict_compare, Verdict.isIncompatible_ofFindings, Bool.or_eq_false_iff, List.any_eq_false,
      List.any_eq_false]
    refine ⟨fun f hf => ?_, fun c hc => ?_⟩
    · simp [Verdict.breaks, (findings f hf).isIncompatible]
    · simp [lone c hc]
  · rw [verdict_compare]
    refine Verdict.symbolsGone_ofFindings (List.any_eq_false.mpr ?_)
    intro c hc
    simp [symbols c hc]

end Accepted

/-! ## An example

In the second release a field is renamed and open to all, another field stands where there was
none, an enumeration has one more value, and there is another function. -/

/-- A library with a function on a record and an enumeration. -/
def firstRelease : Interface :=
  { Interface.empty with
    types := .ofList [
      ⟨"i", "int", "", "int", "", 4, 4, .builtin ⟨false, true⟩⟩,
      ⟨"p", "p", "a.h", "r*", "r", 8, 8, .pointer⟩,
      ⟨"r", "r", "a.h", "r", "", 8, 4,
        .record ⟨[⟨"x", "i", 0, .prot⟩], [], [], .structRecord, false, [], .pub⟩⟩,
      ⟨"e", "e", "a.h", "e", "", 4, 4, .enum ⟨"i", [⟨"A", 0⟩], .pub⟩⟩]
    functions := .ofList [⟨"f", "a.h", "f", ⟨"e", [⟨"p", false, false⟩], []⟩, .pub⟩]
    functionSymbols := .ofList [⟨"f", .global⟩] }

/-- The library with a field renamed and open to all, a field and a value more, and another
function. -/
def secondRelease : Interface :=
  { Interface.empty with
    types := .ofList [
      ⟨"i", "int", "", "int", "", 4, 4, .builtin ⟨false, true⟩⟩,
      ⟨"l", "long", "", "long", "", 8, 8, .builtin ⟨false, true⟩⟩,
      ⟨"p", "p", "b.h", "r*", "r", 8, 8, .pointer⟩,
      ⟨"r", "r", "b.h", "r", "", 8, 4,
        .record ⟨[⟨"y", "i", 0, .pub⟩, ⟨"z", "i", 32, .pub⟩], [], [], .structRecord, false, [],
          .pub⟩⟩,
      ⟨"e", "e", "b.h", "e", "", 4, 4, .enum ⟨"i", [⟨"B", 1⟩, ⟨"A", 0⟩], .pub⟩⟩]
    functions := .ofList [
      ⟨"f", "b.h", "f", ⟨"e", [⟨"p", false, false⟩], []⟩, .pub⟩,
      ⟨"g", "b.h", "g", ⟨"l", [], []⟩, .pub⟩]
    functionSymbols := .ofList [⟨"f", .global⟩, ⟨"g", .global⟩] }

theorem distinctFields_firstRelease : firstRelease.DistinctFields := by
  intro t mem layout shape
  have listed := Catalog.mem_of_mem_ofList mem
  simp only [List.mem_cons, List.not_mem_nil, or_false] at listed
  rcases listed with rfl | rfl | rfl | rfl
  · cases shape
  · cases shape
  · cases shape
    exact List.pairwise_singleton _ _
  · cases shape

theorem fields_secondRelease : FieldsEvolve [⟨"x", "i", 0, .prot⟩] [⟨"x", "i", 0, .prot⟩]
    [⟨"y", "i", 0, .pub⟩, ⟨"z", "i", 32, .pub⟩] := by
  refine .rename ⟨rfl, rfl, rfl⟩ (by decide) ⟨by decide, by decide⟩ ?_
  exact .add (by decide) ⟨by decide, by decide⟩ .nil

theorem evolves_secondRelease : firstRelease.Evolves secondRelease where
  types s mem := by
    have listed := Catalog.mem_of_mem_ofList mem
    simp only [List.mem_cons, List.not_mem_nil, or_false] at listed
    rcases listed with rfl | rfl | rfl | rfl
    · exact ⟨_, rfl, rfl, rfl, rfl, rfl, rfl, rfl, .same _⟩
    · exact ⟨_, rfl, rfl, rfl, rfl, rfl, rfl, rfl, .same _⟩
    · exact ⟨_, rfl, rfl, rfl, rfl, rfl, rfl, rfl,
        .record ⟨fields_secondRelease, rfl, rfl, rfl, rfl, rfl, rfl⟩⟩
    · exact ⟨_, rfl, rfl, rfl, rfl, rfl, rfl, rfl, .enum ⟨rfl, rfl, by decide⟩⟩
  newTypes := by decide
  functions f mem := by
    cases List.mem_singleton.mp (Catalog.mem_of_mem_ofList mem)
    exact ⟨"b.h", rfl⟩
  globals g mem := absurd mem List.not_mem_nil
  functionSymbols := by decide
  objectSymbols := by decide

theorem secondRelease_accepted : firstRelease.DistinctFields ∧ firstRelease.Evolves secondRelease
    ∧ (compare firstRelease secondRelease .plain).Accepted :=
  ⟨distinctFields_firstRelease, evolves_secondRelease,
    accepted_of_evolves _ _ _ distinctFields_firstRelease evolves_secondRelease⟩

end AbiCompat
