/-
# Records that share a key

Types are stored by their ids and held against each other by their linker set keys, and several ids
may share a key.  Of the records of one key only the one with the last id is held against another
one, so that a change of the others is found only if something refers to them.

## What is proved

Where all types are compared, two records of one id and of different room are a finding exactly if
the walk meets their id:

    the change from the one record to the other is found  ↔  the walk notes the id with itself

The walk meets the last ids of a key, what exported names are written in, and the parts of what it
meets; and it meets nothing else.  Two definitions of one record show both sides: a change of the
one with the last id is found, and a change of the other one is not, though all types are compared.

## What is not

A walk over exported names alone has no use for keys of types, and nothing is said of it here.  For
enumerations the same holds of their keys; but enumerations that differ are told apart by more than
their room, and they are not treated.
-/
import AbiCompat.Proofs.AllTypes
import AbiCompat.Proofs.Listings
import AbiCompat.Proofs.Walk.Visits

namespace AbiCompat

/-! ## The last id of a key -/

/-- A named record, and of those with its key the one with the last id. -/
structure Interface.LastOfKey (m : Interface) (s : TypeDecl) : Prop where
  named : ∃ a, m.Has (.record s a)
  last : ∀ r a, m.Has (.record r a) → r.linkKey = s.linkKey → r = s ∨ r.id < s.id

namespace Scope

variable {m : Interface} {s t : TypeDecl} {k : String}

/-- The records by key are the last ones. -/
theorem find?_recordsByKey :
    (recordsByKey m).find? k = some s ↔ m.LastOfKey s ∧ s.linkKey = k := by
  constructor
  · intro found
    obtain ⟨mem, key, last⟩ := Catalog.last_of_find?_ofList m.userDefined_ascending found
    refine ⟨⟨Interface.mem_namedRecords.mp mem, ?_⟩, key⟩
    intro r a has same
    exact last r (Interface.mem_namedRecords.mpr ⟨a, has⟩) (same.trans key)
  · rintro ⟨⟨named, last⟩, rfl⟩
    have mem := Interface.mem_namedRecords.mpr named
    cases found : (recordsByKey m).find? s.linkKey with
    | none => exact absurd rfl (Catalog.find?_ofList_eq_none.mp found s mem)
    | some r =>
        obtain ⟨mem', key, last'⟩ := Catalog.last_of_find?_ofList m.userDefined_ascending found
        obtain ⟨a, has⟩ := Interface.mem_namedRecords.mp mem'
        rcases last' s mem rfl with same | before
        · rw [same]
        · rcases last r a has key with same | before'
          · rw [same]
          · exact absurd before (String.lt_asymm before')

/-- The records that the walk over all types begins with are the last ones of their keys. -/
theorem mem_userTypes_of_record {scope : Scope} (record : s.kind = .record) :
    .type s t ∈ scope.userTypes ↔ scope.old.LastOfKey s ∧ scope.new.LastOfKey t
      ∧ t.linkKey = s.linkKey ∧ scope.policy.ignores s.linkKey = false := by
  have enums : ¬ ∃ p ∈ scope.keptPairs TypeDecl.linkKey
      ((enumsByKey scope.old).common (enumsByKey scope.new)), Entry.type p.1 p.2 = .type s t := by
    rintro ⟨⟨x, y⟩, kept, same⟩
    cases same
    obtain ⟨mem, -⟩ := mem_keptPairs.mp kept
    have kind := TypeDecl.kind_of_enum? (List.mem_filter.mp (Catalog.mem_of_mem_ofList mem)).2
    rw [record] at kind
    cases kind
  rw [userTypes, List.mem_append, List.mem_map, List.mem_map, or_iff_left enums]
  constructor
  · rintro ⟨⟨x, y⟩, pair, same⟩
    cases same
    obtain ⟨old, new, kept⟩ := mem_keptPairs.mp pair
    obtain ⟨lastT, key⟩ := find?_recordsByKey.mp new
    exact ⟨(find?_recordsByKey.mp (Catalog.find?_key old)).1, lastT, key, kept⟩
  · rintro ⟨lastS, lastT, key, kept⟩
    have old := Catalog.mem_of_find? (find?_recordsByKey.mpr ⟨lastS, rfl⟩)
    exact ⟨(s, t), mem_keptPairs.mpr ⟨old, find?_recordsByKey.mpr ⟨lastT, key⟩, kept⟩, rfl⟩

theorem lastOfKey_of_listed {scope : Scope} {id id' : String} {s' t' : TypeDecl}
    (listed : .type s' t' ∈ scope.userTypes) (ids : (id, id') = (s'.id, t'.id))
    (resolves : scope.Resolves id id' s t) (record : s.kind = .record) :
    scope.old.LastOfKey s ∧ scope.new.LastOfKey t ∧ t.linkKey = s.linkKey := by
  obtain ⟨sameS, sameT⟩ := Prod.mk.inj ids
  obtain ⟨hs, ht, -, -, -⟩ := commonType_of_userType listed
  have foundS := Catalog.find?_key (List.mem_filter.mp hs).1
  have foundT := Catalog.find?_key (List.mem_filter.mp ht).1
  rw [← sameS] at foundS
  rw [← sameT] at foundT
  cases Option.some.inj (foundS.symm.trans resolves.old)
  cases Option.some.inj (foundT.symm.trans resolves.new)
  obtain ⟨lastS, lastT, key, -⟩ := (mem_userTypes_of_record record).mp listed
  exact ⟨lastS, lastT, key⟩

/-! ## Records of different room -/

/-- The id is that of a named record in both versions; the two have one key, which is not left
out, and they differ in room. -/
structure Resized (scope : Scope) (id : String) (s t : TypeDecl) : Prop where
  resolves : scope.Resolves id id s t
  old : ∃ a, s.shape = .record a ∧ a.isAnonymous = false
  new : ∃ b, t.shape = .record b ∧ b.isAnonymous = false
  key : s.linkKey = t.linkKey
  room : s.size ≠ t.size ∨ s.alignment ≠ t.alignment

theorem Resized.reported {scope : Scope} {id : String} {es : List Event} {d : Difference}
    (resized : scope.Resized id s t) (look : scope.Looks id id es d) :
    ∃ c, .reported (.record c) ∈ es ∧ c.old = s ∧ c.new = t := by
  obtain ⟨a, hs, -⟩ := resized.old
  obtain ⟨b, ht, -⟩ := resized.new
  have run := look.recordRun resized.resolves hs ht (.inr (.inr resized.key))
  obtain ⟨v, r, agree, fes, -, -, finding⟩ := run.finding
  have room : s.sameRoom t = false := TypeDecl.sameRoom_eq_false_iff.mpr resized.room
  obtain ⟨c, reported⟩ := finding (by simp [recordBreaks, room])
  obtain ⟨s', t', resolves, types⟩ := look.types_of_reported reported
  obtain ⟨rfl, rfl⟩ := resized.resolves.unique resolves
  cases types
  exact ⟨c, reported, rfl, rfl⟩

end Scope

open Scope in
/-- Two records of different room are a finding exactly if the walk meets their id.  It meets the
last id of a key; and what is found about an old record of the id is about the last ids of the
key, or it is about ids that an exported name is written in, or that are parts of other ones. -/
theorem resized_found_iff {old new : Interface} {policy : Policy} {id : String} {s t : TypeDecl}
    (all : policy.checkAll = true) (resized : (Scope.mk old new policy).Resized id s t) :
    ((∃ f ∈ (compare old new policy).findings, ∃ c, f.change = .record c ∧ c.old = s ∧ c.new = t)
        ↔ (Scope.mk old new policy).Meets (id, id))
      ∧ (old.LastOfKey s → new.LastOfKey t → (Scope.mk old new policy).Meets (id, id))
      ∧ ∀ f ∈ (compare old new policy).findings, ∀ c, f.change = .record c → c.old.id = id →
        (old.LastOfKey s ∧ new.LastOfKey c.new ∧ c.new.linkKey = s.linkKey)
          ∨ (∃ e ∈ (Scope.mk old new policy).exports, ∃ use, e.Part use id c.new.id)
          ∨ ∃ use q, (Scope.mk old new policy).Meets q
            ∧ (Scope.mk old new policy).Parts use q (id, c.new.id) := by
  have idS : s.id = id := Catalog.key_of_find? resized.resolves.old
  have idT : t.id = id := Catalog.key_of_find? resized.resolves.new
  have record : s.kind = .record := by
    obtain ⟨a, shape, -⟩ := resized.old
    exact TypeDecl.kind_of_shape shape
  have types {f : Finding} {c : RecordChange} (change : f.change = .record c) :
      f.change.types? = some (c.old, c.new) := by
    rw [change]
    rfl
  refine ⟨⟨?_, ?_⟩, ?_, ?_⟩
  · rintro ⟨f, found, c, change, rfl, rfl⟩
    obtain ⟨-, meets⟩ := meets_of_finding found (types change)
    rw [idS, idT] at meets
    exact meets
  · intro meets
    obtain ⟨reach, look, -, found⟩ := meets.looked
    obtain ⟨c, reported, old, new⟩ := resized.reported look
    obtain ⟨f, mem, -, change⟩ := found reported
    exact ⟨f, mem, c, change, old, new⟩
  · intro lastS lastT
    have kept := resized.resolves.kept
    rw [← resized.key] at kept
    have meets := meets_of_userType all ((mem_userTypes_of_record record).mpr
      ⟨lastS, lastT, resized.key.symm, kept⟩)
    rw [idS, idT] at meets
    exact meets
  · intro f found c change same
    obtain ⟨resolves, meets⟩ := meets_of_finding found (types change)
    rw [same] at resolves meets
    rcases meets.sources with root | ⟨s', t', -, listed, ids⟩ | part
    · exact .inr (.inl root)
    · have both : (Scope.mk old new policy).Resolves id c.new.id s c.new :=
        ⟨resized.resolves.old, resolves.new, resolves.kept⟩
      exact .inl (lastOfKey_of_listed listed ids both record)
    · exact .inr (.inr part)

/-- A definition of a record that may have others. -/
def variant (id : String) (size : UInt64) : TypeDecl :=
  ⟨id, "S", "", "S", "", size, 4, .record ⟨[], [], [], .structRecord, false, [], .pub⟩⟩

/-- Two definitions of one record, with these sizes. -/
def twoVariants (a b : UInt64) : Interface :=
  { Interface.empty with types := .ofList [variant "S#ODR:a" a, variant "S#ODR:b" b] }

/-- A change of the definition with the last id is found. -/
theorem lastVariant_found :
    (Scope.mk (twoVariants 4 4) (twoVariants 4 8) (.withAll .plain true)).Resized "S#ODR:b"
        (variant "S#ODR:b" 4) (variant "S#ODR:b" 8)
      ∧ ∃ f ∈ (compare (twoVariants 4 4) (twoVariants 4 8) (.withAll .plain true)).findings,
        ∃ c, f.change = .record c ∧ c.old = variant "S#ODR:b" 4 ∧ c.new = variant "S#ODR:b" 8 := by
  have resized :
      (Scope.mk (twoVariants 4 4) (twoVariants 4 8) (.withAll .plain true)).Resized "S#ODR:b"
        (variant "S#ODR:b" 4) (variant "S#ODR:b" 8) :=
    ⟨⟨by decide, by decide, by decide⟩, ⟨_, rfl, rfl⟩, ⟨_, rfl, rfl⟩, rfl, .inl (by decide)⟩
  obtain ⟨found, last, -⟩ := resized_found_iff rfl resized
  have old : (Scope.recordsByKey (twoVariants 4 4)).find? "S" = some (variant "S#ODR:b" 4) := by
    decide
  have new : (Scope.recordsByKey (twoVariants 4 8)).find? "S" = some (variant "S#ODR:b" 8) := by
    decide
  exact ⟨resized, found.mpr (last (Scope.find?_recordsByKey.mp old).1
    (Scope.find?_recordsByKey.mp new).1)⟩

/-- A change of the other definition is not found, though all types are compared. -/
theorem not_all_resized_found :
    ¬ ∀ (old new : Interface) (policy : Policy) (id : String) (s t : TypeDecl),
      policy.checkAll = true → (Scope.mk old new policy).Resized id s t →
      ∃ f ∈ (compare old new policy).findings, ∃ c, f.change = .record c ∧ c.old.id = id := by
  intro claim
  have resized :
      (Scope.mk (twoVariants 4 4) (twoVariants 8 4) (.withAll .plain true)).Resized "S#ODR:a"
        (variant "S#ODR:a" 4) (variant "S#ODR:a" 8) :=
    ⟨⟨by decide, by decide, by decide⟩, ⟨_, rfl, rfl⟩, ⟨_, rfl, rfl⟩, rfl, .inl (by decide)⟩
  obtain ⟨f, found, -⟩ := claim _ _ (.withAll .plain true) _ _ _ rfl resized
  have nothing : (compare (twoVariants 4 4) (twoVariants 8 4) (.withAll .plain true)).findings
      = [] := by decide
  rw [nothing] at found
  exact List.not_mem_nil found

end AbiCompat
