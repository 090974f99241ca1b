/-
# What the entries of a report tell

An entry is read without the two interfaces at hand, so it has to tell by itself what changed.  Two
structures say what that is: `RecordChangeEntry.Tells` for two records, `EnumChangeEntry.Tells` for
two enumerations.  Neither mentions the walk; what differs is said with `DirectlyDiffers` and with
the maps from names to values, as for findings.

## What is proved

`of_compare_tells`: every entry about a change in the report on a comparison stands for a finding
with its path, and tells what the declarations of the two versions are.  It is never blank: an
entry on records shows a part that is not about new fields, and an entry on enumerations shows other
values or other storage.

The entries on records rest on what `RecordReason` says of each part of a finding; those on
enumerations on `enumChange_between`.  A part that an entry leaves out is known to be the same for
room, access and virtual tables.  For bases and fields it is not: types that were met before count
as the same, and the entry is silent on them.

## What is not

That every change has an entry is no matter of entries; which changes the walk passes over is said
where fields, parameters and bases are treated.  Entries on what came or went are the declarations
themselves with names for ids, and have nothing to be told.
-/
import AbiCompat.Proofs.Enumerations
import AbiCompat.Report.Basic

namespace AbiCompat

/-! ## What there is to tell -/

/-- The entry tells how two records differ. -/
structure RecordChangeEntry.Tells (e : RecordChangeEntry) (scope : Scope) (s t : TypeDecl)
    (a b : RecordLayout) : Prop where
  name : e.name = s.name
  linkKey : e.linkKey = s.linkKey
  room : ∀ x, e.room = some x ↔ (s.size ≠ t.size ∨ s.alignment ≠ t.alignment)
    ∧ x = ⟨s.size, t.size, s.alignment, t.alignment⟩
  access : ∀ x, e.access = some x ↔ a.access ≠ b.access ∧ x = (a.access, b.access)
  vtable : ∀ x, e.vtable = some x ↔
    a.vtable.map Slot.seen ≠ b.vtable.map Slot.seen ∧ x = (a.vtable, b.vtable)
  bases : ∀ x, e.bases = some x → scope.BasesDiffer a.bases b.bases
    ∧ x = (a.bases.map (Base.shown scope.old), b.bases.map (Base.shown scope.new))
  changed : ∀ p q, (p, q) ∈ e.fieldsChanged → ∃ x y, p = x.shown scope.old ∧ q = y.shown scope.new
    ∧ scope.FieldChanged a.fields b.fields x y
  removed : ∀ p ∈ e.fieldsRemoved, ∃ x, p = x.shown scope.old
    ∧ scope.FieldRemoved a.fields b.fields x
  added : ∀ q ∈ e.fieldsAdded, ∃ y, q = y.shown scope.new ∧ scope.FieldAdded a.fields b.fields y
  notBlank : e.room ≠ none ∨ e.access ≠ none ∨ e.vtable ≠ none ∨ e.bases ≠ none
    ∨ e.fieldsChanged ≠ [] ∨ e.fieldsRemoved ≠ []

/-- The entry tells how two enumerations differ. -/
structure EnumChangeEntry.Tells (e : EnumChangeEntry) (scope : Scope) (s : TypeDecl)
    (a b : EnumLayout) : Prop where
  name : e.name = s.name
  linkKey : e.linkKey = s.linkKey
  underlying : ∀ x, e.underlying = some x ↔
    scope.old.typeName a.underlying ≠ scope.new.typeName b.underlying
      ∧ x = (scope.old.typeName a.underlying, scope.new.typeName b.underlying)
  removed : ∀ x, x ∈ e.removed ↔ a.valueOf? x.name = some x.value ∧ b.valueOf? x.name = none
  added : ∀ x, x ∈ e.added ↔ a.valueOf? x.name = none ∧ b.valueOf? x.name = some x.value
  changed : ∀ x y, (x, y) ∈ e.changed ↔ x.name = y.name ∧ a.valueOf? x.name = some x.value
    ∧ b.valueOf? y.name = some y.value ∧ x.value ≠ y.value
  notBlank : scope.EnumsDiffer a b

/-! ## Entries made of changes

What a change says of its declarations goes into the entry as it is, with names for ids; the flags
of a change decide whether tables and bases are shown. -/

section Made

variable {scope : Scope} {path : String}

theorem RecordChangeEntry.tells_of {c : RecordChange} (reason : scope.RecordReason c) :
    (RecordChangeEntry.of scope.old scope.new path c).Tells scope c.old c.new c.oldLayout
      c.newLayout where
  name := rfl
  linkKey := rfl
  room := reason.room
  access := reason.access
  vtable x := by
    rw [← reason.vtable, RecordChangeEntry.of]
    cases c.vtableChanged <;> simp [eq_comm]
  bases x shown := by
    obtain ⟨changed, same⟩ := Option.ite_none_right_eq_some.mp shown
    exact ⟨reason.bases changed, (Option.some.inj same).symm⟩
  changed p q mem := by
    obtain ⟨⟨x, y⟩, here, same⟩ := List.mem_map.mp mem
    cases same
    exact ⟨x, y, rfl, rfl, reason.changed x y here⟩
  removed p mem := by
    obtain ⟨x, here, rfl⟩ := List.mem_map.mp mem
    exact ⟨x, rfl, reason.removed x here⟩
  added q mem := by
    obtain ⟨y, here, rfl⟩ := List.mem_map.mp mem
    exact ⟨y, rfl, reason.added y here⟩
  notBlank := by
    rcases reason.tells with room | access | vtable | bases | changed | removed
    · exact .inl room
    · exact .inr (.inl access)
    · refine .inr (.inr (.inl ?_))
      simp [RecordChangeEntry.of, vtable]
    · refine .inr (.inr (.inr (.inl ?_)))
      simp [RecordChangeEntry.of, bases]
    · exact .inr (.inr (.inr (.inr (.inl (mt List.map_eq_nil_iff.mp changed)))))
    · exact .inr (.inr (.inr (.inr (.inr (mt List.map_eq_nil_iff.mp removed)))))

theorem Scope.enumChange_underlying {s t : TypeDecl} {a b : EnumLayout} (x : String × String) :
    (scope.enumChange s t a b).underlying = some x ↔
      scope.old.typeName a.underlying ≠ scope.new.typeName b.underlying
        ∧ x = (scope.old.typeName a.underlying, scope.new.typeName b.underlying) := by
  rw [Scope.enumChange]
  split
  · rename_i same
    simp [same]
  · rename_i other
    simp [other, eq_comm]

theorem EnumChangeEntry.tells_of {c : EnumChange} {a b : EnumLayout}
    (reason : scope.EnumReason c a b) :
    (EnumChangeEntry.of path c).Tells scope c.old a b := by
  have between := scope.enumChange_between c.old c.new a b
  have underlying := scope.enumChange_underlying (s := c.old) (t := c.new) (a := a) (b := b)
  rw [← reason.made] at between underlying
  exact ⟨rfl, rfl, underlying, between.mem_removed, between.mem_added, between.mem_changed,
    reason.differs⟩

end Made

/-! ## Entries of a report

Each list on changes is filled by going through the findings, so that an entry in it is the entry
of a finding of its kind. -/

namespace Outcome

variable {o : Outcome} {f : Finding} {reach : Reach} {isExtension : Bool}

theorem recordChange?_eq_some {e : RecordChangeEntry} (made : o.recordChange? reach f = some e) :
    ∃ c, f.change = .record c ∧ e = .of o.old o.new f.pathText c := by
  unfold recordChange? at made
  split at made
  · rename_i c change
    split at made
    · exact ⟨c, change, (Option.some.inj made).symm⟩
    · cases made
  · cases made

theorem enumChange?_eq_some {e : EnumChangeEntry}
    (made : enumChange? reach isExtension f = some e) :
    ∃ c, f.change = .enum c ∧ e = .of f.pathText c := by
  unfold enumChange? at made
  split at made
  · rename_i c change
    split at made
    · exact ⟨c, change, (Option.some.inj made).symm⟩
    · cases made
  · cases made

theorem functionChange?_eq_some {e : FunctionChangeEntry} (made : o.functionChange? f = some e) :
    ∃ g h, f.change = .function g h ∧ e = ⟨f.pathText, g.shown o.old, h.shown o.new⟩ := by
  unfold functionChange? at made
  split at made
  · rename_i g h change
    exact ⟨g, h, change, (Option.some.inj made).symm⟩
  · cases made

theorem globalChange?_eq_some {e : GlobalChangeEntry} (made : o.globalChange? f = some e) :
    ∃ g h, f.change = .global g h ∧ e = ⟨f.pathText, g.shown o.old, h.shown o.new⟩ := by
  unfold globalChange? at made
  split at made
  · rename_i g h change
    exact ⟨g, h, change, (Option.some.inj made).symm⟩
  · cases made

end Outcome

namespace Report

/-- The entries on changes of records, in use or not. -/
def allRecordChanges (r : Report) : List RecordChangeEntry :=
  r.recordChanges ++ r.unreferencedRecordChanges

/-- The entries on changes of enumerations, in use or not, extensions or not. -/
def allEnumChanges (r : Report) : List EnumChangeEntry :=
  r.enumChanges ++ r.enumExtensions ++ r.unreferencedEnumChanges ++ r.unreferencedEnumExtensions

variable {o : Outcome} {libName arch : String}

theorem finding_of_recordChange {e : RecordChangeEntry}
    (listed : e ∈ (Report.of o libName arch).allRecordChanges) :
    ∃ f ∈ o.findings, ∃ c, f.change = .record c ∧ e = .of o.old o.new f.pathText c := by
  rcases List.mem_append.mp listed with listed | listed <;>
  · obtain ⟨f, found, made⟩ := List.mem_filterMap.mp listed
    exact ⟨f, found, Outcome.recordChange?_eq_some made⟩

theorem finding_of_enumChange {e : EnumChangeEntry}
    (listed : e ∈ (Report.of o libName arch).allEnumChanges) :
    ∃ f ∈ o.findings, ∃ c, f.change = .enum c ∧ e = .of f.pathText c := by
  simp only [allEnumChanges, List.mem_append] at listed
  rcases listed with ((listed | listed) | listed) | listed <;>
  · obtain ⟨f, found, made⟩ := List.mem_filterMap.mp listed
    exact ⟨f, found, Outcome.enumChange?_eq_some made⟩

/-- Every entry on a change stands for a finding, has its path, and tells what the declarations of
the two versions are. -/
theorem of_compare_tells (old new : Interface) (policy : Policy) (libName arch : String) :
    let scope : Scope := ⟨old, new, policy⟩
    let o := compare old new policy
    let r := Report.of o libName arch
    (∀ e ∈ r.allRecordChanges, ∃ f ∈ o.findings, e.path = f.pathText ∧ ∃ i j s t a b,
        scope.Resolves i j s t ∧ s.shape = .record a ∧ t.shape = .record b ∧ e.Tells scope s t a b)
    ∧ (∀ e ∈ r.allEnumChanges, ∃ f ∈ o.findings, e.path = f.pathText ∧ ∃ i j s t a b,
        scope.Resolves i j s t ∧ s.shape = .enum a ∧ t.shape = .enum b ∧ e.Tells scope s a b)
    ∧ (∀ e ∈ r.functionChanges, ∃ f ∈ o.findings, e.path = f.pathText ∧ ∃ g h,
        scope.CommonFunction g h ∧ e.old = g.shown old ∧ e.new = h.shown new
          ∧ (g.access ≠ h.access ∨ scope.SignaturesDiffer g.signature h.signature))
    ∧ ∀ e ∈ r.globalChanges, ∃ f ∈ o.findings, e.path = f.pathText ∧ ∃ g h,
        scope.CommonGlobal g h ∧ e.old = g.shown old ∧ e.new = h.shown new
          ∧ (g.access ≠ h.access ∨ scope.DirectlyDiffers (g.typeId, h.typeId)) := by
  intro scope o r
  have justified : ∀ f ∈ (compare old new policy).findings, scope.Justified f.change := by
    rw [findings_compare]
    exact scope.bounds_differ.of_walk (fun e mem => Scope.within_of_entry (.inl mem))
      fun e mem => Scope.within_of_entry (.inr mem)
  refine ⟨?_, ?_, ?_, ?_⟩
  · intro e listed
    obtain ⟨f, found, c, change, rfl⟩ := finding_of_recordChange listed
    cases change ▸ justified f found with
    | record resolves reason =>
        exact ⟨f, found, rfl, _, _, _, _, _, _, resolves, reason.old, reason.new,
          RecordChangeEntry.tells_of reason⟩
  · intro e listed
    obtain ⟨f, found, c, change, rfl⟩ := finding_of_enumChange listed
    cases change ▸ justified f found with
    | enum resolves reason =>
        exact ⟨f, found, rfl, _, _, _, _, _, _, resolves, reason.old, reason.new,
          EnumChangeEntry.tells_of reason⟩
  · intro e listed
    obtain ⟨f, found, made⟩ := List.mem_filterMap.mp listed
    obtain ⟨g, h, change, rfl⟩ := Outcome.functionChange?_eq_some made
    cases change ▸ justified f found with
    | function common differs => exact ⟨f, found, rfl, g, h, common, rfl, rfl, differs⟩
  · intro e listed
    obtain ⟨f, found, made⟩ := List.mem_filterMap.mp listed
    obtain ⟨g, h, change, rfl⟩ := Outcome.globalChange?_eq_some made
    cases change ▸ justified f found with
    | global common differs => exact ⟨f, found, rfl, g, h, common, rfl, rfl, differs⟩

end Report

end AbiCompat
