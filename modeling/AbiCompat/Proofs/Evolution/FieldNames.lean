/-
# New names for fields

A field that has another name, and is otherwise as it was, is held against the first field at its
offset.  If it is the first one there itself, or the first one has its type and no less access,
then the new name is no change.  Of the members of a union and of bit-fields that share an offset
only one comes first, and the others may be taken for fields that went.  `RenamesMatch` excludes
just that.

## What is proved

For an interface that is unchanged against itself, and a version of it in which fields have other
names:

    RenamesMatch → the comparison finds nothing, and no entity comes or goes

    ¬ RenamesMatch → between some two interfaces with no other field lists, and the same change of
                     names, a caller breaks; each of the two is unchanged against itself

So on the level of field lists the condition is the exact one, although for one given interface it
may fail and nothing be found: the types that are held against each other may happen not to differ.

## How

The two versions agree in the sense of `Agreement`: the pairs of an id with itself are closed under
parts, because fields that are held against each other have one type.  That is `alike_of_judged`,
and it is the only place where the condition is used.  The converse takes the interface that the
failing field list makes possible, a clash, in which the two types that are held against each other
are records of different sizes.
-/
import AbiCompat.Proofs.Evolution.Interfaces
import AbiCompat.Proofs.Identity
import Mathlib.Data.List.Zip

namespace AbiCompat

/-! ## Field lists

A name belongs to one pair of fields, and the name that a field lost is not used again, so that
names may be given back: the relation is symmetric.  The first fields at an offset belong together,
as dropping the names shows. -/

/-- A field as it was, or under a name that is new to the record. -/
structure Field.Renamed (olds : List Field) (p q : Field) : Prop where
  kept : q = { p with name := q.name }
  name : q.name = p.name ∨ p.name ≠ "" ∧ q.NewlyNamed olds

/-- The new fields are the old ones, some of them under other names, and names tell the fields
apart, before and after. -/
structure FieldsRenamed (olds news : List Field) : Prop where
  length : olds.length = news.length
  fields : ∀ p q, (p, q) ∈ olds.zip news → Field.Renamed olds p q
  oldNames : DistinctNames olds
  newNames : DistinctNames news

/-- The first field at the offset of a field can stand for it. -/
def Represented (fields : List Field) (p : Field) : Prop :=
  ∀ q, fields.find? (fun q => q.offset == p.offset) = some q →
    q.typeId = p.typeId ∧ p.access.downgradedTo q.access = false

/-- The first field at the offset of each field that lost its name can stand for it. -/
def RenamesMatch (olds news : List Field) : Prop :=
  ∀ p ∈ olds, p.name ≠ "" → (∀ q ∈ news, q.name ≠ p.name) → Represented olds p

theorem represented_of_lone {olds news : List Field} {p : Field} (self : SelfMatching olds)
    (renames : RenamesMatch olds news) (mem : p ∈ olds)
    (lone : p.name = "" ∨ ∀ q ∈ news, q.name ≠ p.name) : Represented olds p := by
  by_cases named : p.name = ""
  · exact self p mem named
  · exact renames p mem named (lone.resolve_left named)

theorem evolve_of_zip {olds ps qs : List Field} (length : ps.length = qs.length)
    (fields : ∀ p q, (p, q) ∈ ps.zip qs → Field.Renamed olds p q) : FieldsEvolve olds ps qs := by
  induction ps generalizing qs with
  | nil =>
      cases List.length_eq_zero_iff.mp length.symm
      exact .nil
  | cons p ps ih =>
      obtain ⟨q, qs, rfl⟩ := List.exists_cons_of_length_eq_add_one length.symm
      obtain ⟨kept, name⟩ := fields p q List.mem_cons_self
      have rest := ih (Nat.succ.inj length) fun p q mem => fields p q (List.mem_cons_of_mem _ mem)
      have becomes : p.Becomes q := by
        rw [kept]
        exact ⟨rfl, rfl, Access.downgradedTo_self _⟩
      rcases name with same | ⟨named, new⟩
      · exact .keep becomes same rest
      · exact .rename becomes named new rest

/-- What is left of a field without its name. -/
def Field.nameless (p : Field) : Field := { p with name := "" }

theorem find?_map_nameless (fields : List Field) (offset : UInt64) :
    (fields.map Field.nameless).find? (fun q => q.offset == offset)
      = (fields.find? fun q => q.offset == offset).map Field.nameless := by
  rw [List.find?_map]
  rfl

namespace FieldsRenamed

variable {olds news : List Field} {p q : Field}

theorem nil : FieldsRenamed [] [] :=
  ⟨rfl, fun _ _ mem => absurd mem List.not_mem_nil, .nil, .nil⟩

theorem exists_old (h : FieldsRenamed olds news) (mem : q ∈ news) :
    ∃ p, (p, q) ∈ olds.zip news := by
  rw [← List.map_snd_zip (Nat.le_of_eq h.length.symm)] at mem
  obtain ⟨⟨p, _⟩, pair, rfl⟩ := List.mem_map.mp mem
  exact ⟨p, pair⟩

theorem pair_eq (h : FieldsRenamed olds news) {p' q' : Field} (mem : (p, q) ∈ olds.zip news)
    (mem' : (p', q') ∈ olds.zip news) (named : p.name ≠ "") (same : p.name = p'.name) :
    (p, q) = (p', q') := by
  have apart : (olds.zip news).Pairwise fun x y => x.1.name ≠ "" → x.1.name ≠ y.1.name := by
    have names := h.oldNames
    rw [← List.map_fst_zip (Nat.le_of_eq h.length), DistinctNames, List.pairwise_map] at names
    exact names
  rcases pairwise_cases apart mem mem' with eq | before | before
  · exact eq
  · exact absurd same (before named)
  · exact absurd same.symm (before (same ▸ named))

theorem name_gone (h : FieldsRenamed olds news) (mem : (p, q) ∈ olds.zip news)
    (named : p.name ≠ "") (renamed : q.name ≠ p.name) : ∀ r ∈ news, r.name ≠ p.name := by
  intro r hr same
  obtain ⟨s, pair⟩ := h.exists_old hr
  rcases (h.fields s r pair).name with kept | ⟨-, -, new⟩
  · cases h.pair_eq mem pair named (same.symm.trans kept)
    exact renamed same
  · exact new p (List.of_mem_zip mem).1 same.symm

theorem symm (h : FieldsRenamed olds news) : FieldsRenamed news olds where
  length := h.length.symm
  fields q p mem := by
    have mem' : (p, q) ∈ olds.zip news := by
      rw [← List.zip_swap] at mem
      obtain ⟨⟨_, _⟩, pair, same⟩ := List.mem_map.mp mem
      cases same
      exact pair
    obtain ⟨kept, name⟩ := h.fields p q mem'
    refine ⟨by rw [kept], ?_⟩
    rcases name with same | ⟨named, new⟩
    · exact .inl same.symm
    · have renamed : q.name ≠ p.name := (new.2 p (List.of_mem_zip mem').1).symm
      exact .inr ⟨new.1, named, h.name_gone mem' named renamed⟩
  oldNames := h.newNames
  newNames := h.oldNames

/-- Fields under other names are fields that evolve. -/
theorem evolve (h : FieldsRenamed olds news) : FieldsEvolve olds olds news :=
  evolve_of_zip h.length h.fields

theorem map_nameless (h : FieldsRenamed olds news) :
    news.map Field.nameless = olds.map Field.nameless := by
  rw [← List.map_snd_zip (Nat.le_of_eq h.length.symm), List.map_map]
  conv => rhs; rw [← List.map_fst_zip (Nat.le_of_eq h.length), List.map_map]
  refine List.map_congr_left fun ⟨p, q⟩ mem => ?_
  show q.nameless = p.nameless
  rw [(h.fields p q mem).kept]
  rfl

theorem find?_offset (h : FieldsRenamed olds news) {offset : UInt64}
    (found : news.find? (fun q => q.offset == offset) = some q) :
    ∃ p, olds.find? (fun p => p.offset == offset) = some p ∧ q = { p with name := q.name } := by
  have whole : (olds.find? fun p => p.offset == offset).map Field.nameless
      = some q.nameless := by
    rw [← find?_map_nameless, ← h.map_nameless, find?_map_nameless, found]
    rfl
  obtain ⟨p, hp, eq⟩ := Option.map_eq_some_iff.mp whole
  refine ⟨p, hp, ?_⟩
  cases q
  cases p
  cases eq
  rfl

theorem represented_of_new (h : FieldsRenamed olds news) (self : SelfMatching olds)
    (renames : RenamesMatch olds news) (pair : (p, q) ∈ olds.zip news)
    (lone : q.name = "" ∨ ∀ r ∈ olds, r.name ≠ q.name) : Represented olds p := by
  have old := (List.of_mem_zip pair).1
  refine represented_of_lone self renames old ?_
  -- the old field has no name either, or it lost it
  rcases (h.fields p q pair).name with same | ⟨named, new⟩
  · exact .inl (same ▸ lone.resolve_right fun none => none p old same.symm)
  · exact .inr (h.name_gone pair named (new.2 p old).symm)

theorem kept_of_namesakes (h : FieldsRenamed olds news) {x y : Located}
    (common : (x, y) ∈ (namedFields olds).common (namedFields news)) :
    y.1 = { x.1 with name := y.1.name } := by
  have same := Catalog.key_eq_of_mem_common common
  obtain ⟨here, there⟩ := Catalog.mem_common.mp common
  have old := mem_of_mem_located (mem_of_mem_namedFields here)
  have new := mem_of_mem_located (mem_of_mem_namedFields (Catalog.mem_of_find? there))
  obtain ⟨p, pair⟩ := h.exists_old new
  obtain ⟨kept, name⟩ := h.fields p _ pair
  have unchanged : y.1.name = p.name := name.resolve_right fun ⟨_, new⟩ => new.2 _ old same.symm
  have origin : x.1 = p := h.oldNames.eq_of_name old (List.of_mem_zip pair).1
    (name_ne_of_mem_namedFields here) (same.symm.trans unchanged)
  rw [origin]
  exact kept

/-- Fields that are held against each other have one type, and where a difference counts they
are interchangeable. -/
theorem alike_of_judged (h : FieldsRenamed olds news) (self : SelfMatching olds)
    (renames : RenamesMatch olds news) {use : Use} {x y : Located}
    (judged : Judged olds news use x y) : x.1.typeId = y.1.typeId
      ∧ (use = .reported → x.1.offset = y.1.offset
        ∧ x.1.access.downgradedTo y.1.access = false) := by
  cases judged with
  | gone lone first =>
      obtain ⟨here, lone⟩ := mem_oneSided.mp lone
      have represented := represented_of_lone self renames (mem_of_mem_located here) lone
      obtain ⟨p, hp, same⟩ := h.find?_offset (find?_of_firstAt? first)
      obtain ⟨types, access⟩ := represented p hp
      refine ⟨?_, fun _ => ⟨(offset_of_firstAt? first).symm, ?_⟩⟩
      all_goals rw [same]
      · exact types.symm
      · exact access
  | new lone first =>
      obtain ⟨here, lone⟩ := mem_oneSided.mp lone
      obtain ⟨p, pair⟩ := h.exists_old (mem_of_mem_located here)
      have kept := (h.fields p _ pair).kept
      have found := find?_of_firstAt? first
      rw [kept] at found
      rw [kept]
      exact ⟨(h.represented_of_new self renames pair lone _ found).1, nofun⟩
  | namesakes common =>
      rw [h.kept_of_namesakes common]
      exact ⟨rfl, fun _ => ⟨rfl, Access.downgradedTo_self _⟩⟩

end FieldsRenamed

/-! ## Types and interfaces -/

/-- Of a record, some fields have other names; everything else is as it was. -/
inductive Shape.Renamed : Shape → Shape → Prop
  | record {a b : RecordLayout} : b = { a with fields := b.fields } →
      FieldsRenamed a.fields b.fields → Renamed (.record a) (.record b)
  | other {x : Shape} : x.kind ≠ .record → Renamed x x

structure TypeDecl.Renamed (s t : TypeDecl) : Prop where
  kept : t = { s with shape := t.shape }
  shape : s.shape.Renamed t.shape

/-- In the records of an interface some fields have other names; everything else is as it was. -/
structure Interface.Renamed (m m' : Interface) : Prop where
  kept : m' = { m with types := m'.types }
  types : ∀ id, Option.Rel TypeDecl.Renamed (m.type? id) (m'.type? id)

/-- Some record has these fields, before and after. -/
inductive Interface.HasFieldLists (m m' : Interface) : List Field → List Field → Prop
  | mk {id : String} {s t : TypeDecl} {a b : RecordLayout} : m.type? id = some s →
      m'.type? id = some t → s.shape = .record a → t.shape = .record b →
      HasFieldLists m m' a.fields b.fields

/-- The first field at the offset of each field that lost its name, in whatever record, can stand
for it. -/
def Interface.RenamesMatch (m m' : Interface) : Prop :=
  ∀ olds news, m.HasFieldLists m' olds news → AbiCompat.RenamesMatch olds news

/-- The records of the first two interfaces have fields like those of the other two, or none. -/
def Interface.FieldListsFrom (n n' m m' : Interface) : Prop :=
  ∀ olds news, n.HasFieldLists n' olds news →
    olds = [] ∧ news = [] ∨ m.HasFieldLists m' olds news

theorem Shape.Renamed.symm {x y : Shape} (h : x.Renamed y) : y.Renamed x := by
  cases h with
  | @record a b kept fields =>
      refine .record ?_ fields.symm
      rw [kept]
  | other kind => exact .other kind

theorem Shape.Renamed.of_record {a b : RecordLayout} (h : Renamed (.record a) (.record b)) :
    FieldsRenamed a.fields b.fields := by
  cases h with
  | record _ fields => exact fields
  | other kind => exact absurd rfl kind

theorem Shape.Renamed.evolves {x y : Shape} (h : x.Renamed y) : x.Evolves y := by
  cases h with
  | @record a b kept fields =>
      refine .record ⟨fields.evolve, ?_, ?_, ?_, ?_, ?_, ?_⟩
      all_goals rw [kept]
      exact Access.downgradedTo_self _
  | other _ => exact .same x

namespace TypeDecl.Renamed

variable {s t : TypeDecl}

theorem symm (h : s.Renamed t) : t.Renamed s := by
  refine ⟨?_, h.shape.symm⟩
  rw [h.kept]

theorem evolves (h : s.Renamed t) : s.Evolves t := by
  have shape := h.shape.evolves
  refine ⟨?_, ?_, ?_, ?_, ?_, ?_, shape⟩
  all_goals rw [h.kept]

end TypeDecl.Renamed

namespace Interface.Renamed

variable {m m' : Interface} {policy : Policy} {s t : TypeDecl} {id : String}

theorem symm (h : m.Renamed m') : m'.Renamed m where
  kept := by rw [h.kept]
  types id := by
    have related := h.types id
    generalize m.type? id = x at related
    generalize m'.type? id = y at related
    cases related with
    | some renamed => exact .some renamed.symm
    | none => exact .none

theorem exists_new (h : m.Renamed m') (found : m.type? id = some s) :
    ∃ t, m'.type? id = some t ∧ s.Renamed t := by
  have related := h.types id
  rw [found] at related
  generalize m'.type? id = y at related
  cases related with
  | some renamed => exact ⟨_, rfl, renamed⟩

theorem records_stay (h : m.Renamed m') : ∀ s ∈ m.types.items, ∀ a, s.shape = .record a →
    ∃ t b, m'.type? s.id = some t ∧ t.shape = .record b := by
  intro s mem a shape
  obtain ⟨t, found, renamed⟩ := h.exists_new (Catalog.find?_key mem)
  have fields := renamed.shape
  rw [shape] at fields
  generalize shape' : t.shape = y at fields
  cases fields with
  | record => exact ⟨t, _, found, shape'⟩
  | other kind => exact absurd rfl kind

theorem of_found (h : m.Renamed m') (old : m.type? id = some s) (new : m'.type? id = some t) :
    s.Renamed t := by
  obtain ⟨t', found, renamed⟩ := h.exists_new old
  cases found.symm.trans new
  exact renamed

theorem evolves (h : m.Renamed m') : m.Evolves m' where
  types s mem := by
    obtain ⟨t, found, renamed⟩ := h.exists_new (Catalog.find?_key mem)
    exact ⟨t, found, renamed.evolves⟩
  newTypes t mem missing := by
    obtain ⟨s, found, -⟩ := h.symm.exists_new (Catalog.find?_key mem)
    cases missing.symm.trans found
  functions f mem := by
    rw [h.kept]
    exact ⟨f.sourceFile, Catalog.find?_key mem⟩
  globals g mem := by
    rw [h.kept]
    exact ⟨g.sourceFile, Catalog.find?_key mem⟩
  functionSymbols s mem := by
    rw [h.kept]
    exact Catalog.find?_key mem
  objectSymbols s mem := by
    rw [h.kept]
    exact Catalog.find?_key mem

/-- Fields that are held against each other are interchangeable. -/
theorem alike_of_judged (h : m.Renamed m') (matching : m.SelfMatching)
    (renames : m.RenamesMatch m') {a b : RecordLayout} (old : m.type? id = some s)
    (new : m'.type? id = some t) (hs : s.shape = .record a) (ht : t.shape = .record b)
    {use : Use} {x y : Located} (judged : Judged a.fields b.fields use x y) :
    x.1.typeId = y.1.typeId ∧ (use = .reported → x.1.offset = y.1.offset
      ∧ x.1.access.downgradedTo y.1.access = false) := by
  have shape := (h.of_found old new).shape
  rw [hs, ht] at shape
  exact shape.of_record.alike_of_judged (matching s (Catalog.mem_of_find? old) a hs)
    (renames _ _ (.mk old new hs ht)) judged

/-- Versions that differ in the names of fields agree, with no change at all. -/
theorem agreement (h : m.Renamed m') (matching : m.SelfMatching) (renames : m.RenamesMatch m') :
    Scope.Agreement ⟨m, m', policy⟩ (fun _ => False) m.Diagonal where
  parts {use p q} diagonal := by
    obtain ⟨a, b⟩ := p
    obtain ⟨same, -⟩ := diagonal
    rintro ⟨s, t, resolves, part⟩
    cases same
    refine ⟨?_, mem_mentions_of_part resolves.old part⟩
    refine (h.of_found resolves.old resolves.new).evolves.eq_of_part_of_judged ?_ part
    exact fun hs ht _ _ _ judged =>
      (h.alike_of_judged matching renames resolves.old resolves.new hs ht judged).1
  alike {p} diagonal := by
    obtain ⟨a, b⟩ := p
    obtain ⟨same, -⟩ := diagonal
    cases same
    intro differs
    cases differs with
    | unresolved _ out =>
        rw [compareUnresolved_self] at out
        cases out
    | types resolves differs =>
        exact (h.of_found resolves.old resolves.new).evolves.not_differs differs
  records diagonal resolves hs ht := by
    obtain ⟨same, -⟩ := diagonal
    cases same
    refine (h.of_found resolves.old resolves.new).evolves.recordsAgree_of_judged hs ht ?_
    exact fun judged =>
      (h.alike_of_judged matching renames resolves.old resolves.new hs ht judged).2 rfl
  enums {i j s t a b} diagonal resolves hs ht := by
    obtain ⟨same, -⟩ := diagonal
    cases same
    have shape := (h.of_found resolves.old resolves.new).shape
    rw [hs, ht] at shape
    cases shape
    have storage := h.evolves.remain.typeName_eq (mem_mentions_of_enum resolves.old hs)
    refine ⟨(EnumLayout.Evolves.refl a).not_isIncompatible storage, ?_⟩
    simp [EnumChange.isExtension, Scope.enumChange]

theorem loneChanges_eq_nil (h : m.Renamed m') : Scope.loneChanges ⟨m, m', policy⟩ = [] := by
  refine Scope.loneChanges_eq_nil ?_ ?_ ?_ ?_ <;> rintro (_ | _)
  · exact h.evolves.functions_without
  · exact h.symm.evolves.functions_without
  · exact h.evolves.globals_without
  · exact h.symm.evolves.globals_without
  · exact h.evolves.remain.records_without
  · exact h.symm.evolves.remain.records_without
  · exact h.evolves.remain.enums_without
  · exact h.symm.evolves.remain.enums_without

theorem allSymbolChanges_eq_nil (h : m.Renamed m') :
    Scope.allSymbolChanges ⟨m, m', policy⟩ = [] := by
  refine Scope.allSymbolChanges_eq_nil ?_
  rintro kind (_ | _)
  · exact h.evolves.symbols_without kind
  · exact h.symm.evolves.symbols_without kind

/-- Where the first field at each offset can stand for those that have other names, other names
are no change. -/
theorem unchanged (h : m.Renamed m') (matching : m.SelfMatching) (renames : m.RenamesMatch m')
    (policy : Policy) : (compare m m' policy).Unchanged := by
  have findings : (compare m m' policy).findings = [] := by
    refine List.eq_nil_iff_forall_not_mem.mpr ?_
    intro f hf
    exact (h.agreement matching renames).mild_of_mem_findings (fun _ => h.evolves.exports_agree)
      (fun _ => h.evolves.remain.userTypes_agree) f hf
  exact unchanged_compare findings h.loneChanges_eq_nil h.allSymbolChanges_eq_nil

end Interface.Renamed

/-! ## Field lists that do not match

Under an id a clash has the record with the fields, or a blank one, or none, whatever the fields
are.  Two clashes for two field lists are therefore one interface in which some fields have other
names, and its field lists are the given ones or empty. -/

section Clash

variable {key id a b : String} {olds news : List Field}

theorem clash_type?_cases (key id a b x : String) :
    (∀ fields, (clash key id a b fields).type? x = some (holding id key fields))
      ∨ (∃ c size, ∀ fields, (clash key id a b fields).type? x = some (blank c key size))
      ∨ ∀ fields, (clash key id a b fields).type? x = none := by
  simp only [clash_type?]
  by_cases whole : id = x
  · exact .inl fun fields => by simp [holding, whole]
  by_cases second : b = x
  · exact .inr (.inl ⟨b, 2, fun fields => by simp [holding, blank, whole, second]⟩)
  by_cases first : a = x
  · exact .inr (.inl ⟨a, 1, fun fields => by simp [holding, blank, whole, second, first]⟩)
  · exact .inr (.inr fun fields => by simp [holding, blank, whole, second, first])

theorem clash_renamed (h : FieldsRenamed olds news) :
    (clash key id a b olds).Renamed (clash key id a b news) where
  kept := rfl
  types x := by
    rcases clash_type?_cases key id a b x with whole | ⟨c, size, blank⟩ | none
    · rw [whole, whole]
      exact .some ⟨rfl, .record rfl h⟩
    · rw [blank, blank]
      exact .some ⟨rfl, .record rfl .nil⟩
    · rw [none, none]
      exact .none

theorem hasFieldLists_clash {xs ys : List Field}
    (h : (clash key id a b olds).HasFieldLists (clash key id a b news) xs ys) :
    xs = [] ∧ ys = [] ∨ xs = olds ∧ ys = news := by
  obtain @⟨x, s, t, _, _, old, new, hs, ht⟩ := h
  rcases clash_type?_cases key id a b x with whole | ⟨c, size, blank⟩ | none
  · cases (whole olds).symm.trans old
    cases (whole news).symm.trans new
    cases hs
    cases ht
    exact .inr ⟨rfl, rfl⟩
  · cases (blank olds).symm.trans old
    cases (blank news).symm.trans new
    cases hs
    cases ht
    exact .inl ⟨rfl, rfl⟩
  · cases (none olds).symm.trans old

end Clash

/-- Where a field lost its name and the first one at its offset cannot stand for it, new names
break the callers of some interface with no other field lists. -/
theorem exists_changed_of_not_renamesMatch {olds news : List Field}
    (h : FieldsRenamed olds news) (unmatched : ¬ RenamesMatch olds news) (policy : Policy) :
    ∃ n n' : Interface, n.Renamed n' ∧ (∀ xs ys, n.HasFieldLists n' xs ys →
        xs = [] ∧ ys = [] ∨ xs = olds ∧ ys = news) ∧
      (compare n n' policy).verdict.isIncompatible = true := by
  obtain ⟨p, mem, named, lone, q, first, unlike⟩ : ∃ p ∈ olds, p.name ≠ "" ∧
      (∀ q ∈ news, q.name ≠ p.name) ∧
      ∃ q, olds.find? (fun q => q.offset == p.offset) = some q ∧
        (q.typeId ≠ p.typeId ∨ p.access.downgradedTo q.access = true) := by
    simpa [RenamesMatch, Represented, imp_iff_not_or] using unmatched
  obtain ⟨x, hx, rfl⟩ := exists_located mem
  obtain ⟨q', first', same⟩ := h.symm.find?_offset first
  rw [← firstAt?_map] at first'
  obtain ⟨y, hy, rfl⟩ := Option.map_eq_some_iff.mp first'
  have judged : Judged olds news .reported x y := .gone (mem_oneSided.mpr ⟨hx, .inr lone⟩) hy
  rw [same] at unlike
  obtain ⟨key, kept⟩ := exists_fresh policy.ignored.keys
  obtain ⟨id, fresh⟩ := exists_fresh [x.1.typeId, y.1.typeId]
  rw [List.mem_cons, List.mem_singleton, not_or] at fresh
  obtain ⟨f, found, breaks⟩ := clash_breaks_of_judged judged
    (unlike.imp_right fun access => ⟨rfl, access⟩) fresh.1 fresh.2 (Catalog.contains_eq_false kept)
  exact ⟨_, _, clash_renamed h, fun xs ys => hasFieldLists_clash,
    isIncompatible_compare_of_breaks found breaks⟩

theorem Interface.SelfMatching.of_fieldLists {n n' m m' : Interface} (matching : m.SelfMatching)
    (stay : ∀ s ∈ n.types.items, ∀ a, s.shape = .record a →
      ∃ t b, n'.type? s.id = some t ∧ t.shape = .record b)
    (lists : n.FieldListsFrom n' m m') : n.SelfMatching := by
  refine matching.of_fieldsFrom fun s mem layout shape => ?_
  obtain ⟨t, b, new, shape'⟩ := stay s mem layout shape
  rcases lists _ _ (.mk (Catalog.find?_key mem) new shape shape') with ⟨none, -⟩ | there
  · exact .inl none
  · generalize layout.fields = xs, b.fields = ys at there
    obtain ⟨found, -, hs, -⟩ := there
    exact .inr ⟨_, Catalog.mem_of_find? found, _, hs, rfl⟩

/-- That the first field at the offset can stand for each field with another name is what it
takes for other names to be no change, in interfaces with these field lists: without it, there
are some with no other field lists whose callers break.  Each of them is unchanged against
itself. -/
theorem renamesMatch_iff_unchanged {m m' : Interface} (renamed : m.Renamed m')
    (matching : m.SelfMatching) (policy : Policy) :
    m.RenamesMatch m' ↔ ∀ n n' : Interface, n.Renamed n' → n.FieldListsFrom n' m m' →
      (compare n n' policy).Unchanged := by
  constructor
  · intro matching' n n' renamed' lists
    refine renamed'.unchanged (matching.of_fieldLists renamed'.records_stay lists) ?_ policy
    intro olds news fields
    rcases lists olds news fields with ⟨rfl, rfl⟩ | fields
    · exact fun p mem => absurd mem List.not_mem_nil
    · exact matching' olds news fields
  · intro unchanged olds news fields
    by_contra unmatched
    have lists : FieldsRenamed olds news := by
      obtain ⟨old, new, hs, ht⟩ := fields
      have shape := (renamed.of_found old new).shape
      rw [hs, ht] at shape
      exact shape.of_record
    obtain ⟨n, n', renamed', from_lists, incompatible⟩ :=
      exists_changed_of_not_renamesMatch lists unmatched policy
    have verdict : (compare n n' policy).verdict = .compatible := by
      refine (unchanged n n' renamed' fun xs ys here => ?_).verdict
      rcases from_lists xs ys here with none | ⟨rfl, rfl⟩
      · exact .inl none
      · exact .inr fields
    rw [verdict] at incompatible
    cases incompatible

/-! ## Members of a union

Of two members of one type the first can stand for the second, so the second may have another
name.  Of an `int` and a `long` it cannot, and the second is found to be gone. -/

/-- A union of `x`, which is an `int`, and one more member. -/
def memberPair (typeId name : String) : TypeDecl :=
  ⟨"u", "u", "", "u", "", 8, 8, .record ⟨[⟨"x", "i", 0, .pub⟩, ⟨name, typeId, 0, .pub⟩], [], [],
    .unionRecord, false, [], .pub⟩⟩

def intDecl : TypeDecl := ⟨"i", "int", "", "int", "", 4, 4, .builtin ⟨false, true⟩⟩

def longDecl : TypeDecl := ⟨"l", "long", "", "long", "", 8, 8, .builtin ⟨false, true⟩⟩

/-- A global variable of the union. -/
def memberPairVariable (typeId name : String) : Interface :=
  { Interface.empty with
    types := .ofList [intDecl, longDecl, memberPair typeId name]
    globals := .ofList [⟨"g", "", "g", "u", .pub⟩] }

theorem memberPairVariable_type? (typeId name x : String) :
    (memberPairVariable typeId name).type? x
      = [memberPair typeId name, longDecl, intDecl].find? (fun t => t.id == x) :=
  Catalog.find?_ofList _ x

theorem memberPairVariable_renamed (typeId : String) :
    (memberPairVariable typeId "y").Renamed (memberPairVariable typeId "z") where
  kept := rfl
  types x := by
    rw [memberPairVariable_type?, memberPairVariable_type?]
    by_cases union : "u" = x
    · have fields : FieldsRenamed [⟨"x", "i", 0, .pub⟩, ⟨"y", typeId, 0, .pub⟩]
          [⟨"x", "i", 0, .pub⟩, ⟨"z", typeId, 0, .pub⟩] := by
        refine ⟨rfl, ?_, by simp [DistinctNames], by simp [DistinctNames]⟩
        intro p q mem
        simp only [List.zip_cons_cons, List.zip_nil_right, List.mem_cons, List.not_mem_nil,
          or_false, Prod.mk.injEq] at mem
        rcases mem with ⟨rfl, rfl⟩ | ⟨rfl, rfl⟩
        · exact ⟨rfl, .inl rfl⟩
        · exact ⟨rfl, .inr ⟨by simp, by simp, by simp⟩⟩
      simpa [memberPair, union] using Option.Rel.some ⟨rfl, .record rfl fields⟩
    by_cases long : "l" = x
    · simpa [memberPair, longDecl, union, long] using Option.Rel.some ⟨rfl, .other nofun⟩
    by_cases int : "i" = x
    · simpa [memberPair, longDecl, intDecl, union, long, int] using
        Option.Rel.some ⟨rfl, .other nofun⟩
    · simp [memberPair, longDecl, intDecl, union, long, int]

theorem mem_memberPairVariable {typeId name : String} {t : TypeDecl} {layout : RecordLayout}
    (mem : t ∈ (memberPairVariable typeId name).types.items) (shape : t.shape = .record layout) :
    layout.fields = [⟨"x", "i", 0, .pub⟩, ⟨name, typeId, 0, .pub⟩] := by
  have listed := Catalog.mem_of_mem_ofList mem
  simp only [List.mem_cons, List.not_mem_nil, or_false] at listed
  rcases listed with rfl | rfl | rfl
  · cases shape
  · cases shape
  · cases shape
    rfl

theorem memberPairVariable_selfMatching (typeId : String) :
    (memberPairVariable typeId "y").SelfMatching := by
  intro t mem layout shape
  rw [mem_memberPairVariable mem shape]
  simp [SelfMatching]

theorem memberPairVariable_renamesMatch :
    (memberPairVariable "i" "y").RenamesMatch (memberPairVariable "i" "z") := by
  rintro olds news @⟨_, s, _, a, b, old, -, shape, -⟩
  rw [mem_memberPairVariable (Catalog.mem_of_find? old) shape]
  intro p mem _ _ q first
  simp only [List.mem_cons, List.not_mem_nil, or_false] at mem
  rcases mem with rfl | rfl
  all_goals
    cases first
    exact ⟨rfl, rfl⟩

/-- A union of two members of one type may give the second one another name. -/
theorem memberPair_renamed_unchanged :
    (memberPairVariable "i" "y").Renamed (memberPairVariable "i" "z")
      ∧ (memberPairVariable "i" "y").SelfMatching
      ∧ (compare (memberPairVariable "i" "y") (memberPairVariable "i" "z") .plain).Unchanged :=
  ⟨memberPairVariable_renamed "i", memberPairVariable_selfMatching "i",
    (renamesMatch_iff_unchanged (memberPairVariable_renamed "i")
      (memberPairVariable_selfMatching "i") .plain).mp memberPairVariable_renamesMatch _ _
      (memberPairVariable_renamed "i") fun _ _ here => .inr here⟩

/-- With members of two types it may not: the second one is held against the first one. -/
theorem not_unchanged_of_renamed : ¬ ∀ (m m' : Interface) (policy : Policy), m.Renamed m' →
    (compare m m policy).findings = [] → (compare m m' policy).findings = []
      ∧ (compare m m' policy).lone = [] ∧ (compare m m' policy).verdict = .compatible := by
  intro h
  obtain ⟨-, -, verdict⟩ := h (memberPairVariable "l" "y") (memberPairVariable "l" "z") .plain
    (memberPairVariable_renamed "l") (by decide)
  revert verdict
  decide

end AbiCompat
