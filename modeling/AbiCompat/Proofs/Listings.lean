/-
# What came or went is listed exactly

A comparison lists what one version has and the other one lacks, group by group: first what went
and then what came, for each kind of entity and for both lists of dynamic symbols.  A group is in
the order of its keys and has each of them once.

Which keys a group has is told by what the two versions hold.  Not every one-sided key is listed: a
key may be left out by the policy, it may have the position of a declaration in it, and dynamic
symbols may excuse an exported name.

## What is proved

The two lists of an outcome are put together from groups, one for each direction and each kind, in
an order that is fixed.  Each group is a `Listing`: it has exactly the keys with `ListsKey` (or
`ListsSymbol`), once each and in ascending order, and what stands under a key is what the version
holds.  `ListsKey` and `ListsSymbol` ask only what the versions hold and what the policy leaves
out; they know nothing of catalogues or of how a list is made.

## How

A group is made by taking from one catalogue what the other one lacks, filtering it, and giving it
another form.  `listing_without` is about that in general.  What is left for each kind is which
catalogue it is, and what the filter asks.

## What is not

Entities that both versions have are the matter of the walk.  Whether a listing makes the versions
incompatible is the matter of the verdict.
-/
import AbiCompat.Compare.Outcome
import AbiCompat.Proofs.Catalog

namespace AbiCompat

/-! ## Listings -/

/-- The list has exactly the keys that `K` tells, once each and in ascending order, and what has
them is as `P` says. -/
structure Listing {α : Type} (key : α → String) (P : α → Prop) (K : String → Prop)
    (xs : List α) : Prop where
  ascending : xs.Pairwise fun x y => key x < key y
  items : ∀ x ∈ xs, P x
  keys : ∀ k, (∃ x ∈ xs, key x = k) ↔ K k

theorem Listing.congr {α : Type} {key : α → String} {P : α → Prop} {K K' : String → Prop}
    {xs : List α} (h : Listing key P K xs) (same : ∀ k, K k ↔ K' k) : Listing key P K' xs where
  ascending := h.ascending
  items := h.items
  keys k := (h.keys k).trans (same k)

namespace Catalog

variable {α β γ : Type} {key : α → String} {key' : β → String} {c : Catalog key}

/-- What one catalogue has and the other one lacks, as far as it is kept, and in another form. -/
theorem listing_without {okey : γ → String} {P : γ → Prop} {make : α → Option γ}
    (makes : ∀ x ∈ c.items, ∃ y, make x = some y ∧ okey y = key x ∧ P y) (d : Catalog key')
    (keep : α → Bool) :
    Listing okey P
      (fun k => ∃ x ∈ c.items, key x = k ∧ (∀ y ∈ d.items, key' y ≠ k) ∧ keep x = true)
      (((c.without d).filter keep).filterMap make) := by
  have mem {x : α} : x ∈ (c.without d).filter keep ↔
      x ∈ c.items ∧ (∀ y ∈ d.items, key' y ≠ key x) ∧ keep x = true := by
    rw [List.mem_filter, mem_without, find?_eq_none, and_assoc]
  constructor
  · have ascending : ((c.without d).filter keep).Pairwise fun x y => key x < key y :=
      (c.ascending.filter _).filter _
    refine List.pairwise_filterMap.mpr (ascending.imp_of_mem ?_)
    intro x x' hx hx' lt y hy y' hy'
    obtain ⟨z, made, same, -⟩ := makes x (mem.mp hx).1
    obtain ⟨z', made', same', -⟩ := makes x' (mem.mp hx').1
    cases made.symm.trans hy
    cases made'.symm.trans hy'
    rw [same, same']
    exact lt
  · intro y listed
    obtain ⟨x, hx, hy⟩ := List.mem_filterMap.mp listed
    obtain ⟨z, made, -, holds⟩ := makes x (mem.mp hx).1
    cases made.symm.trans hy
    exact holds
  · intro k
    constructor
    · rintro ⟨y, listed, rfl⟩
      obtain ⟨x, hx, hy⟩ := List.mem_filterMap.mp listed
      obtain ⟨here, gone, kept⟩ := mem.mp hx
      obtain ⟨z, made, same, -⟩ := makes x here
      cases made.symm.trans hy
      exact ⟨x, here, same.symm, same ▸ gone, kept⟩
    · rintro ⟨x, here, rfl, gone, kept⟩
      obtain ⟨y, made, same, -⟩ := makes x here
      exact ⟨y, List.mem_filterMap.mpr ⟨x, mem.mpr ⟨here, gone, kept⟩, made⟩, same⟩

end Catalog

/-! ## What versions hold -/

/-- The kinds of entities that come and go. -/
inductive EntityKind where
  | function
  | global
  | record
  | enum

def LoneEntity.kind : LoneEntity → EntityKind
  | function _ => .function
  | global _ => .global
  | record _ _ => .record
  | enum _ _ => .enum

/-- The dynamic symbols that implement the entities of a kind. -/
def EntityKind.symbols? : EntityKind → Option SymbolKind
  | function => some .function
  | global => some .object
  | record | enum => none

/-- The version has the entity; a record without a name of its own is none. -/
inductive Interface.Has (m : Interface) : LoneEntity → Prop
  | function {f : FunctionDecl} : f ∈ m.functions.items → Has m (.function f)
  | global {g : GlobalDecl} : g ∈ m.globals.items → Has m (.global g)
  | record {t : TypeDecl} {a : RecordLayout} : t ∈ m.types.items → t.shape = .record a →
      a.isAnonymous = false → Has m (.record t a)
  | enum {t : TypeDecl} {a : EnumLayout} : t ∈ m.types.items → t.shape = .enum a →
      Has m (.enum t a)

/-- Some entity of the kind has the linker set key. -/
def Interface.HasKey (m : Interface) (kind : EntityKind) (key : String) : Prop :=
  ∃ e, m.Has e ∧ e.kind = kind ∧ e.key = key

namespace Scope

/-- Nothing about the dynamic symbols of this name excuses that only one version has it: the
other version does not have the symbol, and it is not weak where weak symbols may change. -/
structure Unexcused (scope : Scope) (d : Direction) (kind : SymbolKind) (name : String) :
    Prop where
  gone : ∀ s ∈ (symbolsOf (scope.other d) kind).items, s.name ≠ name
  strong : scope.policy.weakMayChange = true →
    ∀ s ∈ (symbolsOf (scope.holder d) kind).items, s.name = name → s.isWeak = false

/-- One version has the key and the other one lacks it, and nothing speaks against listing it. -/
structure ListsKey (scope : Scope) (kind : EntityKind) (d : Direction) (key : String) : Prop where
  here : (scope.holder d).HasKey kind key
  gone : ¬ (scope.other d).HasKey kind key
  kept : scope.policy.ignores key = false
  stable : ¬ " at ".toList <:+: key.toList
  unexcused : ∀ symbols ∈ kind.symbols?, scope.Unexcused d symbols key

/-- One version has the symbol, the other one lacks it, and it is not excused. -/
structure ListsSymbol (scope : Scope) (kind : SymbolKind) (d : Direction) (name : String) :
    Prop where
  here : ∃ s ∈ (symbolsOf (scope.holder d) kind).items, s.name = name
  unexcused : scope.Unexcused d kind name

/-- The kinds of which lone entities are listed; types are where all types are compared. -/
def listedKinds (scope : Scope) : List EntityKind :=
  if scope.policy.checkAll then [.function, .global, .record, .enum] else [.function, .global]

variable {scope : Scope} {d : Direction}

/-! ## What speaks against listing a key -/

theorem unexcused_iff {kind : SymbolKind} {name : String} : scope.Unexcused d kind name ↔
    (symbolsOf (scope.other d) kind).contains name = false
      ∧ (scope.policy.weakMayChange
        && ((symbolsOf (scope.holder d) kind).find? name).any Symbol.isWeak) = false := by
  have gone : (symbolsOf (scope.other d) kind).contains name = false ↔
      ∀ s ∈ (symbolsOf (scope.other d) kind).items, s.name ≠ name := by
    rw [Catalog.contains, Option.isSome_eq_false_iff, Option.isNone_iff_eq_none,
      Catalog.find?_eq_none]
  have strong : ((symbolsOf (scope.holder d) kind).find? name).any Symbol.isWeak = false ↔
      ∀ s ∈ (symbolsOf (scope.holder d) kind).items, s.name = name → s.isWeak = false := by
    constructor
    · rintro strong s mem rfl
      rw [Catalog.find?_key mem] at strong
      exact strong
    · intro strong
      cases found : (symbolsOf (scope.holder d) kind).find? name with
      | none => rfl
      | some s => exact strong s (Catalog.mem_of_find? found) (Catalog.key_of_find? found)
  rw [gone, Bool.and_eq_false_imp, strong]
  exact ⟨fun h => ⟨h.gone, h.strong⟩, fun h => ⟨h.1, h.2⟩⟩

theorem hasPosition_eq_false {key : String} :
    hasPosition key = false ↔ ¬ " at ".toList <:+: key.toList := by
  rw [← Bool.not_eq_true, hasPosition, Text.occurs_iff]
  rfl

theorem listsName_iff (kind : SymbolKind) {key : String} :
    scope.listsName (symbolsOf (scope.holder d) kind) (symbolsOf (scope.other d) kind) key = true ↔
      scope.policy.ignores key = false ∧ ¬ " at ".toList <:+: key.toList
        ∧ scope.Unexcused d kind key := by
  rw [unexcused_iff, ← hasPosition_eq_false, listsName]
  simp only [Bool.and_eq_true, Bool.not_eq_true']
  constructor
  · rintro ⟨⟨⟨kept, gone⟩, strong⟩, stable⟩
    exact ⟨kept, stable, gone, strong⟩
  · rintro ⟨kept, stable, gone, strong⟩
    exact ⟨⟨⟨kept, gone⟩, strong⟩, stable⟩

/-! ## The keys of versions -/

end Scope

namespace Interface

variable {m : Interface} {k : String}

theorem hasKey_function : m.HasKey .function k ↔ ∃ f ∈ m.functions.items, f.linkKey = k := by
  constructor
  · rintro ⟨e, has, kind, rfl⟩
    cases has with
    | function listed => exact ⟨_, listed, rfl⟩
    | global | record | enum => cases kind
  · rintro ⟨f, listed, rfl⟩
    exact ⟨_, .function listed, rfl, rfl⟩

theorem hasKey_global : m.HasKey .global k ↔ ∃ g ∈ m.globals.items, g.linkKey = k := by
  constructor
  · rintro ⟨e, has, kind, rfl⟩
    cases has with
    | global listed => exact ⟨_, listed, rfl⟩
    | function | record | enum => cases kind
  · rintro ⟨g, listed, rfl⟩
    exact ⟨_, .global listed, rfl, rfl⟩

theorem mem_namedRecords {t : TypeDecl} :
    t ∈ m.userDefined.filter (fun t => t.record?.isSome) ↔ ∃ a, m.Has (.record t a) := by
  rw [mem_userDefined, Option.isSome_iff_exists]
  simp only [TypeDecl.record?_eq_some_iff]
  constructor
  · rintro ⟨listed, named, a, shape⟩
    rw [TypeDecl.isUserDefined, shape, Bool.not_eq_true'] at named
    exact ⟨a, .record listed shape named⟩
  · rintro ⟨a, has⟩
    cases has with
    | record listed shape named =>
        refine ⟨listed, ?_, a, shape⟩
        rw [TypeDecl.isUserDefined, shape, Bool.not_eq_true']
        exact named

theorem mem_enums {t : TypeDecl} :
    t ∈ m.userDefined.filter (fun t => t.enum?.isSome) ↔ ∃ a, m.Has (.enum t a) := by
  rw [mem_userDefined, Option.isSome_iff_exists]
  simp only [TypeDecl.enum?_eq_some_iff]
  constructor
  · rintro ⟨listed, -, a, shape⟩
    exact ⟨a, .enum listed shape⟩
  · rintro ⟨a, has⟩
    cases has with
    | enum listed shape =>
        refine ⟨listed, ?_, a, shape⟩
        rw [TypeDecl.isUserDefined, shape]

theorem hasKey_record :
    m.HasKey .record k ↔ ∃ t ∈ (Scope.recordsByKey m).items, t.linkKey = k := by
  rw [Scope.recordsByKey, Catalog.exists_key_ofList]
  simp only [mem_namedRecords]
  constructor
  · rintro ⟨e, has, kind, rfl⟩
    cases has with
    | record listed shape named => exact ⟨_, ⟨_, .record listed shape named⟩, rfl⟩
    | function | global | enum => cases kind
  · rintro ⟨t, ⟨a, has⟩, rfl⟩
    exact ⟨_, has, rfl, rfl⟩

theorem hasKey_enum : m.HasKey .enum k ↔ ∃ t ∈ (Scope.enumsByKey m).items, t.linkKey = k := by
  rw [Scope.enumsByKey, Catalog.exists_key_ofList]
  simp only [mem_enums]
  constructor
  · rintro ⟨e, has, kind, rfl⟩
    cases has with
    | enum listed shape => exact ⟨_, ⟨_, .enum listed shape⟩, rfl⟩
    | function | global | record => cases kind
  · rintro ⟨t, ⟨a, has⟩, rfl⟩
    exact ⟨_, has, rfl, rfl⟩

end Interface

namespace Scope

variable {scope : Scope} {d : Direction}

/-- The keys that one of two catalogues has and the other one lacks are listed, if the
catalogues have the keys of the kind, and what is kept of them is what nothing speaks against. -/
theorem listsKey_iff {α : Type} {key : α → String} {kind : EntityKind} {own others : Catalog key}
    {keep : α → Bool} (here : ∀ k, (scope.holder d).HasKey kind k ↔ ∃ x ∈ own.items, key x = k)
    (there : ∀ k, (scope.other d).HasKey kind k ↔ ∃ x ∈ others.items, key x = k)
    (keeps : ∀ x, keep x = true ↔ scope.policy.ignores (key x) = false
      ∧ ¬ " at ".toList <:+: (key x).toList
      ∧ ∀ symbols ∈ kind.symbols?, scope.Unexcused d symbols (key x)) (k : String) :
    (∃ x ∈ own.items, key x = k ∧ (∀ y ∈ others.items, key y ≠ k) ∧ keep x = true) ↔
      scope.ListsKey kind d k := by
  constructor
  · rintro ⟨x, mem, rfl, gone, kept⟩
    obtain ⟨kept, stable, unexcused⟩ := (keeps x).mp kept
    have gone : ¬ (scope.other d).HasKey kind (key x) := by
      rw [there]
      rintro ⟨y, hy, same⟩
      exact gone y hy same
    exact ⟨(here _).mpr ⟨x, mem, rfl⟩, gone, kept, stable, unexcused⟩
  · rintro ⟨has, gone, kept, stable, unexcused⟩
    obtain ⟨x, mem, rfl⟩ := (here k).mp has
    refine ⟨x, mem, rfl, ?_, (keeps x).mpr ⟨kept, stable, unexcused⟩⟩
    intro y hy same
    exact gone ((there _).mpr ⟨y, hy, same⟩)

/-! ## The groups -/

/-- The entities of a kind that came or went. -/
def loneEntities (scope : Scope) (kind : EntityKind) (d : Direction) : List LoneEntity :=
  match kind with
  | .function => (scope.loneFunctions d).map LoneChange.entity
  | .global => (scope.loneGlobals d).map LoneChange.entity
  | .record => (scope.loneRecords d).map LoneChange.entity
  | .enum => (scope.loneEnums d).map LoneChange.entity

/-- The entities as which the group of a kind lists what came or went. -/
def Lists (scope : Scope) (kind : EntityKind) (d : Direction) (es : List LoneEntity) : Prop :=
  Listing LoneEntity.key (fun e => (scope.holder d).Has e ∧ e.kind = kind)
    (scope.ListsKey kind d) es

theorem lists_exported {α : Type} {key : α → String} {kind : EntityKind} {symbols : SymbolKind}
    {own others : Catalog key} {wrap : α → LoneEntity} (implements : kind.symbols? = some symbols)
    (has : ∀ x ∈ own.items, (scope.holder d).Has (wrap x))
    (wraps : ∀ x, (wrap x).key = key x ∧ (wrap x).kind = kind)
    (here : ∀ k, (scope.holder d).HasKey kind k ↔ ∃ x ∈ own.items, key x = k)
    (there : ∀ k, (scope.other d).HasKey kind k ↔ ∃ x ∈ others.items, key x = k) :
    scope.Lists kind d (((own.without others).filter fun x =>
      scope.listsName (symbolsOf (scope.holder d) symbols) (symbolsOf (scope.other d) symbols)
        (key x)).map wrap) := by
  rw [← List.filterMap_eq_map]
  refine (Catalog.listing_without ?_ others _).congr (listsKey_iff here there ?_)
  · intro x mem
    exact ⟨wrap x, rfl, (wraps x).1, has x mem, (wraps x).2⟩
  · intro x
    rw [listsName_iff symbols, implements]
    simp only [Option.mem_some_iff, forall_eq']

theorem lists_types {kind : EntityKind} {byKey : Interface → Catalog TypeDecl.linkKey}
    {make : TypeDecl → Option LoneEntity} (free : kind.symbols? = none)
    (makes : ∀ t ∈ (byKey (scope.holder d)).items, ∃ e, make t = some e ∧ e.key = t.linkKey
      ∧ (scope.holder d).Has e ∧ e.kind = kind)
    (keys : ∀ {m : Interface} k, m.HasKey kind k ↔ ∃ t ∈ (byKey m).items, t.linkKey = k) :
    scope.Lists kind d ((scope.loneTypes byKey d).filterMap make) := by
  refine (Catalog.listing_without makes (byKey (scope.other d)) _).congr
    (listsKey_iff keys keys ?_)
  intro t
  rw [free, Bool.and_eq_true, Bool.not_eq_true', Bool.not_eq_true', hasPosition_eq_false]
  simp

theorem lists_loneEntities (scope : Scope) (kind : EntityKind) (d : Direction) :
    scope.Lists kind d (scope.loneEntities kind d) := by
  cases kind with
  | function =>
      have lists : scope.Lists .function d _ := lists_exported rfl
        (fun _ listed => .function listed) (fun _ => ⟨rfl, rfl⟩)
        (fun _ => Interface.hasKey_function) fun _ => Interface.hasKey_function
      rw [loneEntities, loneFunctions, List.map_map]
      exact lists
  | global =>
      have lists : scope.Lists .global d _ := lists_exported rfl
        (fun _ listed => .global listed) (fun _ => ⟨rfl, rfl⟩)
        (fun _ => Interface.hasKey_global) fun _ => Interface.hasKey_global
      rw [loneEntities, loneGlobals, List.map_map]
      exact lists
  | record =>
      rw [loneEntities, loneRecords, List.map_filterMap]
      refine lists_types rfl ?_ fun _ => Interface.hasKey_record
      intro t listed
      obtain ⟨a, has⟩ := Interface.mem_namedRecords.mp (Catalog.mem_of_mem_ofList listed)
      have shape : t.record? = some a := by
        cases has with
        | record _ shape => exact TypeDecl.record?_eq_some_iff.mpr shape
      exact ⟨.record t a, by rw [shape]; rfl, rfl, has, rfl⟩
  | enum =>
      rw [loneEntities, loneEnums, List.map_filterMap]
      refine lists_types rfl ?_ fun _ => Interface.hasKey_enum
      intro t listed
      obtain ⟨a, has⟩ := Interface.mem_enums.mp (Catalog.mem_of_mem_ofList listed)
      have shape : t.enum? = some a := by
        cases has with
        | enum _ shape => exact TypeDecl.enum?_eq_some_iff.mpr shape
      exact ⟨.enum t a, by rw [shape]; rfl, rfl, has, rfl⟩

theorem map_loneEntities (scope : Scope) (kind : EntityKind) (d : Direction) :
    (scope.loneEntities kind d).map (LoneChange.mk d) = match kind with
      | .function => scope.loneFunctions d
      | .global => scope.loneGlobals d
      | .record => scope.loneRecords d
      | .enum => scope.loneEnums d := by
  cases kind with
  | function =>
      rw [loneEntities, loneFunctions, List.map_map, List.map_map]
      rfl
  | global =>
      rw [loneEntities, loneGlobals, List.map_map, List.map_map]
      rfl
  | record =>
      simp only [loneEntities, loneRecords, List.map_filterMap, Option.map_map]
      rfl
  | enum =>
      simp only [loneEntities, loneEnums, List.map_filterMap, Option.map_map]
      rfl

/-- The groups stand one after the other. -/
theorem loneChanges_eq (scope : Scope) :
    scope.loneChanges = scope.listedKinds.flatMap fun kind =>
      [Direction.removed, .added].flatMap fun d =>
        (scope.loneEntities kind d).map (LoneChange.mk d) := by
  simp only [map_loneEntities, loneChanges, listedKinds]
  split <;> simp

/-! ## Symbols -/

/-- The symbols of a kind that came or went. -/
def loneSymbols (scope : Scope) (kind : SymbolKind) (d : Direction) : List Symbol :=
  (scope.symbolChanges kind d).map SymbolChange.symbol

/-- The symbols as which the group of a kind lists what came or went. -/
def ListsSymbols (scope : Scope) (kind : SymbolKind) (d : Direction) (symbols : List Symbol) :
    Prop :=
  Listing Symbol.name (· ∈ (symbolsOf (scope.holder d) kind).items) (scope.ListsSymbol kind d)
    symbols

theorem lists_loneSymbols (scope : Scope) (kind : SymbolKind) (d : Direction) :
    scope.ListsSymbols kind d (scope.loneSymbols kind d) := by
  have form : scope.loneSymbols kind d
      = (((symbolsOf (scope.holder d) kind).without (symbolsOf (scope.other d) kind)).filter
        fun s => !(scope.policy.weakMayChange && s.isWeak)).filterMap some := by
    rw [loneSymbols, symbolChanges, List.map_map, List.filterMap_some]
    exact List.map_id _
  rw [form]
  refine (Catalog.listing_without (fun s mem => ⟨s, rfl, rfl, mem⟩) _ _).congr fun name => ?_
  simp only [Bool.not_eq_true', Bool.and_eq_false_imp]
  constructor
  · rintro ⟨s, mem, rfl, gone, strong⟩
    refine ⟨⟨s, mem, rfl⟩, gone, ?_⟩
    intro weakMayChange s' mem' same
    rw [Catalog.eq_of_key_eq mem' mem same]
    exact strong weakMayChange
  · rintro ⟨⟨s, mem, rfl⟩, gone, strong⟩
    exact ⟨s, mem, rfl, gone, fun weakMayChange => strong weakMayChange s mem rfl⟩

theorem map_loneSymbols (scope : Scope) (kind : SymbolKind) (d : Direction) :
    (scope.loneSymbols kind d).map (SymbolChange.mk d kind) = scope.symbolChanges kind d := by
  rw [loneSymbols, symbolChanges, List.map_map, List.map_map]
  rfl

theorem allSymbolChanges_eq (scope : Scope) :
    scope.allSymbolChanges = [SymbolKind.function, .object].flatMap fun kind =>
      [Direction.removed, .added].flatMap fun d =>
        (scope.loneSymbols kind d).map (SymbolChange.mk d kind) := by
  simp only [map_loneSymbols, allSymbolChanges]
  simp

end Scope

/-- What a comparison lists as gone or new: group by group, and in each group exactly the keys
that it is to list. -/
theorem compare_lists (old new : Interface) (policy : Policy) :
    let scope : Scope := ⟨old, new, policy⟩
    ∃ (entities : EntityKind → Direction → List LoneEntity)
      (symbols : SymbolKind → Direction → List Symbol),
      (compare old new policy).lone
          = scope.listedKinds.flatMap (fun kind => [Direction.removed, .added].flatMap fun d =>
            (entities kind d).map (LoneChange.mk d))
        ∧ (∀ kind d, scope.Lists kind d (entities kind d))
        ∧ (compare old new policy).symbols
          = [SymbolKind.function, .object].flatMap (fun kind =>
            [Direction.removed, .added].flatMap fun d =>
              (symbols kind d).map (SymbolChange.mk d kind))
        ∧ ∀ kind d, scope.ListsSymbols kind d (symbols kind d) := by
  intro scope
  exact ⟨scope.loneEntities, scope.loneSymbols, scope.loneChanges_eq, scope.lists_loneEntities,
    scope.allSymbolChanges_eq, scope.lists_loneSymbols⟩

/-- Of three functions that went, one was declared at a position and one is weak. -/
example :
    let went (key : String) : FunctionDecl := ⟨key, "", key, ⟨"", [], []⟩, .pub⟩
    let old : Interface := { Interface.empty with
      functions := .ofList [went "f", went "lambda at f.h:1", went "w"]
      functionSymbols := .ofList [⟨"f", .global⟩, ⟨"w", .weak⟩] }
    let outcome := compare old .empty { Policy.plain with weakMayChange := true }
    outcome.lone.map (fun c => c.entity.key) = ["f"]
      ∧ outcome.symbols.map (fun c => c.symbol.name) = ["f"] := by
  decide

end AbiCompat
