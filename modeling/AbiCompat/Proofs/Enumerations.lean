/-
# The comparison of two enumerations is exact

To a caller an enumeration is a map from names to values, and the name of the type that stores
them.  `EnumChange.Between` says of a change that its three lists are the three differences of two
such maps, with nothing twice and nothing out of order.

For two enumerations of one key, whatever lists of enumerators they have:

* a comparison reports the change exactly when the maps or the names of the storage are different;
* the change is `Between` the two;
* it is an extension when the storage has kept its name and the old map is a proper part of the new
  one, and incompatible in every other case;
* the comparison in the other direction reports the same change the other way round.

A name that is bound twice is bound by its last value, in both lists (`valueOf?`), which is why the
statements are about maps and not about lists.  Values are signed, and no two of them are ever
confused.

Whether the types that store the values are the same is not asked here, only whether they have the
same name; nor does a change of an enumeration reach whoever refers to it, for the answer is always
that nothing is the matter.
-/
import AbiCompat.Proofs.Breaks

namespace AbiCompat

/-! ## Maps from names to values -/

namespace EnumLayout

/-- Whatever the first enumeration names, the second one gives the same value. -/
def SubMap (a b : EnumLayout) : Prop :=
  ∀ name value, a.valueOf? name = some value → b.valueOf? name = some value

/-- The second enumeration has a name besides those of the first one. -/
def StrictSubMap (a b : EnumLayout) : Prop := a.SubMap b ∧ ¬ b.SubMap a

variable {a b : EnumLayout}

theorem mem_byName {x : Enumerator} :
    x ∈ a.byName.items ↔ a.valueOf? x.name = some x.value := by
  rw [Catalog.mem_items_iff, ← find?_byName, Option.map_eq_some_iff]
  constructor
  · exact fun found => ⟨x, found, rfl⟩
  · rintro ⟨y, found, value⟩
    have name := Catalog.key_of_find? found
    cases x
    cases y
    cases name
    cases value
    exact found

theorem find?_byName_eq_none {name : String} :
    a.byName.find? name = none ↔ a.valueOf? name = none := by
  rw [← find?_byName, Option.map_eq_none_iff]

theorem find?_byName_eq_some {name : String} {x : Enumerator} :
    a.byName.find? name = some x ↔ x.name = name ∧ a.valueOf? name = some x.value := by
  constructor
  · intro found
    have same := Catalog.key_of_find? found
    subst same
    exact ⟨rfl, mem_byName.mp (Catalog.mem_of_find? found)⟩
  · rintro ⟨rfl, value⟩
    exact Catalog.find?_key (mem_byName.mpr value)

theorem SubMap.antisymm (h : a.SubMap b) (h' : b.SubMap a) (name : String) :
    a.valueOf? name = b.valueOf? name :=
  Option.ext fun value => ⟨h name value, h' name value⟩

theorem exists_ne_of_not_subMap (h : ¬ a.SubMap b) :
    ∃ name, a.valueOf? name ≠ b.valueOf? name := by
  by_contra same
  simp only [not_exists, not_not] at same
  exact h fun name value found => (same name).symm.trans found

end EnumLayout

/-! ## The change between two enumerations

If nothing is removed or changed, the old map is within the new one, and something is added exactly
if the new one has a name besides. -/

/-- The scope with the two versions exchanged. -/
def Scope.reversed (scope : Scope) : Scope := ⟨scope.new, scope.old, scope.policy⟩

namespace EnumChange

/-- The change the other way round. -/
def reversed (c : EnumChange) : EnumChange where
  old := c.new
  new := c.old
  underlying := c.underlying.map Prod.swap
  added := c.removed
  removed := c.added
  changed := c.changed.map Prod.swap

/-- The lists of the change are the differences of two maps from names to values: each in the
order of the names, with no name twice, and with exactly the names it is for. -/
structure Between (c : EnumChange) (a b : EnumLayout) : Prop where
  removed_ascending : c.removed.Pairwise (fun x y => x.name < y.name)
  added_ascending : c.added.Pairwise (fun x y => x.name < y.name)
  changed_ascending : c.changed.Pairwise (fun p q => p.1.name < q.1.name)
  mem_removed : ∀ x, x ∈ c.removed ↔ a.valueOf? x.name = some x.value ∧ b.valueOf? x.name = none
  mem_added : ∀ x, x ∈ c.added ↔ a.valueOf? x.name = none ∧ b.valueOf? x.name = some x.value
  mem_changed : ∀ x y, (x, y) ∈ c.changed ↔ x.name = y.name ∧ a.valueOf? x.name = some x.value
    ∧ b.valueOf? y.name = some y.value ∧ x.value ≠ y.value

theorem Between.added_ne_nil_iff {c : EnumChange} {a b : EnumLayout} (exact : c.Between a b)
    (within : a.SubMap b) : c.added ≠ [] ↔ ¬ b.SubMap a := by
  constructor
  · rintro new back
    obtain ⟨x, hx⟩ := List.exists_mem_of_ne_nil _ new
    obtain ⟨none, some⟩ := (exact.mem_added x).mp hx
    rw [back _ _ some] at none
    cases none
  · intro beyond
    simp only [EnumLayout.SubMap, Classical.not_forall] at beyond
    obtain ⟨name, value, new, other⟩ := beyond
    refine List.ne_nil_of_mem ((exact.mem_added ⟨name, value⟩).mpr ⟨?_, new⟩)
    cases old : a.valueOf? name with
    | none => rfl
    | some value' =>
        cases new.symm.trans (within name value' old)
        exact absurd old other

end EnumChange

namespace Scope

variable {scope : Scope} {s t : TypeDecl} {a b : EnumLayout} {reach : Reach}

theorem enumChange_between (scope : Scope) (s t : TypeDecl) (a b : EnumLayout) :
    (scope.enumChange s t a b).Between a b where
  removed_ascending := Catalog.ascending_without a.byName b.byName
  added_ascending := Catalog.ascending_without b.byName a.byName
  changed_ascending := (Catalog.ascending_common a.byName b.byName).filter _
  mem_removed x := by
    refine Catalog.mem_without.trans (and_congr EnumLayout.mem_byName ?_)
    exact EnumLayout.find?_byName_eq_none
  mem_added x := by
    refine Catalog.mem_without.trans (and_comm.trans (and_congr ?_ EnumLayout.mem_byName))
    exact EnumLayout.find?_byName_eq_none
  mem_changed x y := by
    refine List.mem_filter.trans ?_
    rw [Catalog.mem_common, EnumLayout.mem_byName, EnumLayout.find?_byName_eq_some, bne_iff_ne]
    constructor
    · rintro ⟨⟨old, name, new⟩, other⟩
      exact ⟨name.symm, old, by rw [name]; exact new, other⟩
    · rintro ⟨name, old, new, other⟩
      exact ⟨⟨old, name.symm, by rw [name]; exact new⟩, other⟩

theorem enumChange_reversed (scope : Scope) (s t : TypeDecl) (a b : EnumLayout) :
    scope.reversed.enumChange t s b a = (scope.enumChange s t a b).reversed := by
  have storage : (scope.reversed.enumChange t s b a).underlying
      = (scope.enumChange s t a b).underlying.map Prod.swap := by
    simp only [enumChange]
    split <;> split <;> simp_all [reversed]
  have changed : (scope.reversed.enumChange t s b a).changed
      = (scope.enumChange s t a b).changed.map Prod.swap := by
    simp only [enumChange]
    rw [Catalog.common_comm a.byName b.byName, List.filter_map]
    refine congrArg (List.map Prod.swap) (List.filter_congr ?_)
    rintro ⟨x, y⟩ -
    exact bne_comm
  rw [EnumChange.reversed, ← storage, ← changed]
  rfl

/-! ## What is reported

What is neither an extension nor incompatible is no change. -/

/-- Two enumerations whose values by name, or the names of whose storage, are different. -/
def EnumsDiffer (scope : Scope) (a b : EnumLayout) : Prop :=
  (∃ name, a.valueOf? name ≠ b.valueOf? name)
    ∨ scope.old.typeName a.underlying ≠ scope.new.typeName b.underlying

theorem enumsDiffer_reversed : scope.reversed.EnumsDiffer b a ↔ scope.EnumsDiffer a b := by
  simp only [EnumsDiffer, reversed, ne_comm]

theorem valuesBreak_iff : scope.ValuesBreak a b ↔ ¬ a.SubMap b
    ∨ scope.old.typeName a.underlying ≠ scope.new.typeName b.underlying := by
  refine or_congr_left ?_
  simp [EnumLayout.SubMap]

theorem enumChange_isExtension_iff : (scope.enumChange s t a b).isExtension = true ↔
    scope.old.typeName a.underlying = scope.new.typeName b.underlying ∧ a.StrictSubMap b := by
  rw [EnumChange.isExtension, Bool.and_eq_true, Bool.not_eq_true', ← Bool.not_eq_true,
    enumChange_isIncompatible_iff, valuesBreak_iff, not_or, not_not, not_not, Bool.not_eq_true',
    List.isEmpty_eq_false_iff, and_comm (a := a.SubMap b), and_assoc]
  refine and_congr_right fun _ => and_congr_right fun within => ?_
  exact (scope.enumChange_between s t a b).added_ne_nil_iff within

theorem enumsDiffer_iff : scope.EnumsDiffer a b ↔ ((scope.enumChange s t a b).isExtension
    || (scope.enumChange s t a b).isIncompatible) = true := by
  rw [Bool.or_eq_true, enumChange_isExtension_iff, enumChange_isIncompatible_iff, valuesBreak_iff]
  constructor
  · rintro (⟨name, other⟩ | storage)
    · by_contra neither
      simp only [not_or, not_and, not_not, EnumLayout.StrictSubMap] at neither
      obtain ⟨part, within, storage⟩ := neither
      exact other (within.antisymm (part storage within) name)
    · exact .inr (.inr storage)
  · rintro (⟨-, -, beyond⟩ | beyond | storage)
    · exact .inl ((EnumLayout.exists_ne_of_not_subMap beyond).imp fun _ => Ne.symm)
    · exact .inl (EnumLayout.exists_ne_of_not_subMap beyond)
    · exact .inr storage

/-- The comparison of two enumerations of one key reports the change if they differ, and leaves
the walk as it was if not. -/
theorem compareEnums_run (scope : Scope) (reach : Reach) (key : s.linkKey = t.linkKey)
    (a b : EnumLayout) (w : Walk) :
    (scope.EnumsDiffer a b → (scope.compareEnums reach s t a b).run w
        = (.same, w.report reach (.enum (scope.enumChange s t a b))))
      ∧ (¬ scope.EnumsDiffer a b → (scope.compareEnums reach s t a b).run w = (.same, w)) := by
  rw [compareEnums_eq scope key, reportIf, enumsDiffer_iff (s := s) (t := t)]
  constructor
  · intro differ
    rw [if_pos differ]
    rfl
  · intro agree
    rw [if_neg agree]
    rfl

/-- The comparison of two enumerations of one key is exact.  It reports a change exactly when the
values by name or the names of the storage differ.  The lists of the change are the differences
of the two maps.  What is reported is an extension when the storage has kept its name and the
old map is a proper part of the new one, and incompatible in every other case.  The comparison in
the other direction reports the change the other way round. -/
theorem compareEnums_exact (scope : Scope) (reach : Reach) {s t : TypeDecl}
    (key : s.linkKey = t.linkKey) (a b : EnumLayout) (w : Walk) :
    (scope.EnumsDiffer a b →
        (scope.compareEnums reach s t a b).run w
            = (.same, w.report reach (.enum (scope.enumChange s t a b)))
          ∧ (scope.reversed.compareEnums reach t s b a).run w
            = (.same, w.report reach (.enum (scope.enumChange s t a b).reversed))
          ∧ ((scope.enumChange s t a b).isIncompatible = true
            ↔ (scope.enumChange s t a b).isExtension = false))
      ∧ (¬ scope.EnumsDiffer a b →
        (scope.compareEnums reach s t a b).run w = (.same, w)
          ∧ (scope.reversed.compareEnums reach t s b a).run w = (.same, w))
      ∧ (scope.enumChange s t a b).Between a b
      ∧ ((scope.enumChange s t a b).isExtension = true
        ↔ scope.old.typeName a.underlying = scope.new.typeName b.underlying
          ∧ a.StrictSubMap b) := by
  have onward := scope.compareEnums_run reach key a b w
  have back := scope.reversed.compareEnums_run reach key.symm b a w
  rw [enumsDiffer_reversed, enumChange_reversed] at back
  refine ⟨?_, ?_, scope.enumChange_between s t a b, enumChange_isExtension_iff⟩
  · intro differ
    refine ⟨onward.1 differ, back.1 differ, ?_⟩
    have some_change := (enumsDiffer_iff (s := s) (t := t)).mp differ
    cases incompatible : (scope.enumChange s t a b).isIncompatible with
    | true => simp [EnumChange.isExtension, incompatible]
    | false =>
        rw [incompatible, Bool.or_false] at some_change
        simp [some_change]
  · exact fun agree => ⟨onward.2 agree, back.2 agree⟩

end Scope

/-- Values that an `int` stores. -/
def storedInInt (enumerators : List Enumerator) : EnumLayout := ⟨"i", enumerators, .pub⟩

/-- An enumeration with the given values. -/
def colour (enumerators : List Enumerator) : TypeDecl :=
  ⟨"c", "colour", "", "colour", "", 4, 4, .enum (storedInInt enumerators)⟩

/-- Three names, of which one is bound twice. -/
def firstPalette : List Enumerator := [⟨"red", 7⟩, ⟨"green", 1⟩, ⟨"blue", 2⟩, ⟨"red", 0⟩]

/-- One name is gone, one has another value, and one with a negative value is new. -/
def secondPalette : List Enumerator := [⟨"red", 0⟩, ⟨"blue", 3⟩, ⟨"alpha", -1⟩]

/-- The name that is bound twice has kept its value. -/
theorem palette_changed :
    (colour firstPalette).linkKey = (colour secondPalette).linkKey
      ∧ ∃ c : EnumChange,
        (Scope.compareEnums ⟨.empty, .empty, .plain⟩ .referenced (colour firstPalette)
            (colour secondPalette) (storedInInt firstPalette)
            (storedInInt secondPalette)).run .start
            = (.same, Walk.start.report .referenced (.enum c))
          ∧ c.removed = [⟨"green", 1⟩] ∧ c.added = [⟨"alpha", -1⟩]
          ∧ c.changed = [(⟨"blue", 2⟩, ⟨"blue", 3⟩)]
          ∧ (c.isIncompatible = true ↔ c.isExtension = false) := by
  have key : (colour firstPalette).linkKey = (colour secondPalette).linkKey := rfl
  obtain ⟨reported, -, classes⟩ := (Scope.compareEnums_exact ⟨.empty, .empty, .plain⟩ .referenced
    key (storedInInt firstPalette) (storedInInt secondPalette) .start).1
    (.inl ⟨"green", by decide⟩)
  exact ⟨key, _, reported, by decide, by decide, by decide, classes⟩

end AbiCompat
