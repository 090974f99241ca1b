/-
# Every finding is justified

A finding tells that something differs.  `Justified` says what has to differ, in terms of the two
interfaces and of `DirectlyDiffers` only: no pair that was noted, no docket and no order of the
walk has a part in it.

## What is proved

Every finding of a comparison is justified.  For a record that means more than that some difference
is there: every part of the finding is a difference of the two declarations, and is tied to them
(`RecordReason`).

    changed fields        the old field has a namesake, which cannot stand for it
    removed fields        the old field has no namesake, nor can the first field at its offset stand
                          for it
    added fields          the same, seen from the new record
    room, access          if and only if they differ, with both values
    tables                if and only if a caller sees other tables
    bases                 only if the bases differ; if they are not shown they are as many as
                          before, with the same accesses

For an enumeration the values that came, went or changed are told in `Enumerations`, from the names
alone.

## How

A look reports a record because of answers that it was given.  Answers may be too small, since a
pair that was met before counts as the same, but never too large (`bounds_differ`).  So an answer
`direct` may be taken at its word, and with it every reason follows from what the run of the
fields, the bases and the arguments says of itself.

## What is not

That all which differs is found: fields whose types were met before may be missing in a finding,
and `Masked` says which.
-/
import AbiCompat.Proofs.Walk.Bounds

namespace AbiCompat

/-! ## Reasons -/

/-- The value of a name; of several with one name the last counts. -/
def EnumLayout.valueOf? (e : EnumLayout) (name : String) : Option Int64 :=
  (e.enumerators.reverse.find? fun x => x.name == name).map (·.value)

namespace Scope

/-- Two fields of which the new one cannot stand for the old one. -/
def FieldsDiffer (scope : Scope) (p q : Field) : Prop :=
  p.offset ≠ q.offset ∨ p.access.downgradedTo q.access = true
    ∨ scope.DirectlyDiffers (p.typeId, q.typeId)

/-- Two lists of bases that a caller can tell apart. -/
def BasesDiffer (scope : Scope) (as bs : List Base) : Prop :=
  as.length ≠ bs.length ∨ ∃ x y, (x, y) ∈ as.zip bs ∧
    (x.access ≠ y.access ∨ scope.DirectlyDiffers (x.typeId, y.typeId))

/-- The old field has a namesake, which cannot stand for it. -/
def FieldChanged (scope : Scope) (olds news : List Field) (p q : Field) : Prop :=
  ∃ name, name ≠ "" ∧ fieldOf? olds name = some p ∧ fieldOf? news name = some q
    ∧ scope.FieldsDiffer p q

/-- The old field has no namesake, and what comes first at its offset cannot stand for it. -/
def FieldRemoved (scope : Scope) (olds news : List Field) (p : Field) : Prop :=
  p ∈ olds ∧ (p.name = "" ∨ ∀ q ∈ news, q.name ≠ p.name)
    ∧ ∀ q, news.find? (fun q => q.offset == p.offset) = some q → scope.FieldsDiffer p q

/-- The new field has no namesake, and what comes first at its offset in the old record cannot be
stood for by it. -/
def FieldAdded (scope : Scope) (olds news : List Field) (q : Field) : Prop :=
  q ∈ news ∧ (q.name = "" ∨ ∀ p ∈ olds, p.name ≠ q.name)
    ∧ ∀ p, olds.find? (fun p => p.offset == q.offset) = some p → scope.FieldsDiffer p q

/-- Why the comparison of two enumerations may be a finding.  What it says of them is told by the
two layouts. -/
structure EnumReason (scope : Scope) (c : EnumChange) (a b : EnumLayout) : Prop where
  old : c.old.shape = .enum a
  new : c.new.shape = .enum b
  key : c.old.linkKey = c.new.linkKey
  made : c = scope.enumChange c.old c.new a b
  differs : (∃ name, a.valueOf? name ≠ b.valueOf? name)
    ∨ scope.old.typeName a.underlying ≠ scope.new.typeName b.underlying

/-- Why the comparison of two records may be a finding, and what its parts then say of the two.  At
least one part besides the new fields says something. -/
structure RecordReason (scope : Scope) (c : RecordChange) : Prop where
  old : c.old.shape = .record c.oldLayout
  new : c.new.shape = .record c.newLayout
  key : c.oldLayout.isAnonymous = true ∨ c.newLayout.isAnonymous = true
    ∨ c.old.linkKey = c.new.linkKey
  differs : c.old.size ≠ c.new.size ∨ c.old.alignment ≠ c.new.alignment
    ∨ c.oldLayout.vtable.map Slot.seen ≠ c.newLayout.vtable.map Slot.seen
    ∨ c.oldLayout.access.downgradedTo c.newLayout.access = true
    ∨ scope.BasesDiffer c.oldLayout.bases c.newLayout.bases
    ∨ c.fieldsChanged ≠ [] ∨ c.fieldsRemoved ≠ []
  changed : ∀ p q, (p, q) ∈ c.fieldsChanged →
    scope.FieldChanged c.oldLayout.fields c.newLayout.fields p q
  removed : ∀ p ∈ c.fieldsRemoved,
    scope.FieldRemoved c.oldLayout.fields c.newLayout.fields p
  added : ∀ q ∈ c.fieldsAdded, scope.FieldAdded c.oldLayout.fields c.newLayout.fields q
  room : ∀ x, c.room = some x ↔ (c.old.size ≠ c.new.size ∨ c.old.alignment ≠ c.new.alignment)
    ∧ x = ⟨c.old.size, c.new.size, c.old.alignment, c.new.alignment⟩
  access : ∀ x, c.access = some x ↔ c.oldLayout.access ≠ c.newLayout.access
    ∧ x = (c.oldLayout.access, c.newLayout.access)
  vtable : c.vtableChanged = true ↔
    c.oldLayout.vtable.map Slot.seen ≠ c.newLayout.vtable.map Slot.seen
  bases : c.basesChanged = true → scope.BasesDiffer c.oldLayout.bases c.newLayout.bases
  basesKept : c.basesChanged = false → c.oldLayout.bases.length = c.newLayout.bases.length
    ∧ ∀ x y, (x, y) ∈ c.oldLayout.bases.zip c.newLayout.bases → x.access = y.access
  tells : c.room ≠ none ∨ c.access ≠ none ∨ c.vtableChanged = true ∨ c.basesChanged = true
    ∨ c.fieldsChanged ≠ [] ∨ c.fieldsRemoved ≠ []

/-- Why the comparison of two ids may report a change. -/
inductive TypesReason (scope : Scope) (i j : String) : Change → Prop
  | enum {s t : TypeDecl} {a b : EnumLayout} : scope.Resolves i j s t →
      scope.EnumReason (scope.enumChange s t a b) a b →
      TypesReason scope i j (.enum (scope.enumChange s t a b))
  | record {c : RecordChange} : scope.Resolves i j c.old c.new → scope.RecordReason c →
      TypesReason scope i j (.record c)

/-- What has to be so for a change to be a finding. -/
inductive Justified (scope : Scope) : Change → Prop
  | function {f g : FunctionDecl} : scope.CommonFunction f g →
      f.access ≠ g.access ∨ scope.SignaturesDiffer f.signature g.signature →
      Justified scope (.function f g)
  | global {f g : GlobalDecl} : scope.CommonGlobal f g →
      f.access ≠ g.access ∨ scope.DirectlyDiffers (f.typeId, g.typeId) →
      Justified scope (.global f g)
  | enum {c : EnumChange} {i j : String} {a b : EnumLayout} : scope.Resolves i j c.old c.new →
      scope.EnumReason c a b → Justified scope (.enum c)
  | record {c : RecordChange} {i j : String} : scope.Resolves i j c.old c.new →
      scope.RecordReason c → Justified scope (.record c)

theorem TypesReason.justified {scope : Scope} {i j : String} {c : Change}
    (reason : scope.TypesReason i j c) : scope.Justified c := by
  cases reason with
  | enum resolves reason => exact .enum resolves reason
  | record resolves reason => exact .record resolves reason

end Scope

/-! ## Values by name

Of several values with one name the last counts, for the layout as for the map. -/

theorem find?_byName (e : EnumLayout) (name : String) :
    (e.byName.find? name).map (·.value) = e.valueOf? name := by
  rw [EnumLayout.byName, Catalog.find?_ofList, EnumLayout.valueOf?]

/-! ## What a message on a record shows

Room and access are shown if they differ, with both values. -/

theorem roomChange?_eq_some {s t : TypeDecl} (x : RoomChange) : roomChange? s t = some x ↔
    (s.size ≠ t.size ∨ s.alignment ≠ t.alignment)
      ∧ x = ⟨s.size, t.size, s.alignment, t.alignment⟩ := by
  rw [← TypeDecl.sameRoom_eq_false_iff, roomChange?]
  cases s.sameRoom t with
  | true => simp
  | false => simp [eq_comm]

theorem accessChange?_eq_some {a b : RecordLayout} (x : Access × Access) :
    accessChange? a b = some x ↔ a.access ≠ b.access ∧ x = (a.access, b.access) := by
  unfold accessChange?
  split
  · rename_i same
    simp [same]
  · rename_i changed
    simp [changed, eq_comm]

/-! ## The reasons that a look has

A run over fields knows the fields that are held against each other, and the answer for each of
them.  What it lists as changed, removed or added has therefore a reason if the answers are right,
and what does not break callers differs all the same. -/

section Looks

variable {scope : Scope} {s t : TypeDecl} {a b : RecordLayout} {c e : String} {es : List Event}
  {d : Difference} {ch : Change}

theorem Scope.enumChange_reason {x y : EnumLayout} (hs : s.shape = .enum x)
    (ht : t.shape = .enum y) (key : s.linkKey = t.linkKey)
    (found : (scope.enumChange s t x y).isExtension = true
      ∨ (scope.enumChange s t x y).isIncompatible = true) :
    scope.EnumReason (scope.enumChange s t x y) x y := by
  refine ⟨hs, ht, key, rfl, ?_⟩
  have some_change : (scope.enumChange s t x y).removed ≠ [] ∨ (scope.enumChange s t x y).added ≠ []
      ∨ (scope.enumChange s t x y).changed ≠ []
      ∨ (scope.enumChange s t x y).underlying.isSome = true := by
    simp only [EnumChange.isExtension, EnumChange.isIncompatible, Bool.and_eq_true,
      Bool.or_eq_true, Bool.not_eq_true', List.isEmpty_eq_false_iff] at found
    rcases found with ⟨-, h⟩ | (h | h) | h
    · exact .inr (.inl h)
    · exact .inl h
    · exact .inr (.inr (.inl h))
    · exact .inr (.inr (.inr h))
  rcases some_change with h | h | h | h
  · obtain ⟨z, hz⟩ := List.exists_mem_of_ne_nil _ h
    obtain ⟨here, gone⟩ := Catalog.mem_without.mp hz
    refine .inl ⟨z.name, ?_⟩
    rw [← find?_byName, ← find?_byName, gone, Catalog.find?_key here]
    exact Option.some_ne_none _
  · obtain ⟨z, hz⟩ := List.exists_mem_of_ne_nil _ h
    obtain ⟨here, new⟩ := Catalog.mem_without.mp hz
    refine .inl ⟨z.name, ?_⟩
    rw [← find?_byName, ← find?_byName, new, Catalog.find?_key here]
    exact (Option.some_ne_none _).symm
  · obtain ⟨⟨z, w⟩, hzw⟩ := List.exists_mem_of_ne_nil _ h
    obtain ⟨mem, values⟩ := List.mem_filter.mp hzw
    obtain ⟨hz, hw⟩ := Catalog.mem_common.mp mem
    refine .inl ⟨z.name, ?_⟩
    rw [← find?_byName, ← find?_byName, hw, Catalog.find?_key hz]
    simpa using values
  · refine .inr ?_
    intro same
    simp [Scope.enumChange, same] at h

variable (direct : ∀ {c e}, DirectIn es c e → scope.DirectlyDiffers (c, e))
include direct

theorem FieldsRun.differ {olds news : List Field} {v : Answers} {r : FieldsResult}
    {fes : List Event} (run : FieldsRun olds news v fes r) (sub : fes ⊆ es) {use : Use}
    {p q : Located} (judged : Judged olds news use p q) (differs : v.differs (p, q) = true) :
    scope.FieldsDiffer p.1 q.1 := by
  rw [Answers.differs, Field.differs, Bool.or_eq_true, Bool.or_eq_true, bne_iff_ne] at differs
  rcases differs with (offset | access) | type
  · exact .inl offset
  · exact .inr (.inl access)
  · exact .inr (.inr (direct ⟨v p q, sub (run.judged judged), type⟩))

theorem FieldsRun.changed_reason {olds news : List Field} {v : Answers} {r : FieldsResult}
    {fes : List Event} (run : FieldsRun olds news v fes r) (sub : fes ⊆ es) {p q : Field}
    (h : (p, q) ∈ r.changed) : scope.FieldChanged olds news p q := by
  rw [run.changed] at h
  obtain ⟨⟨x, y⟩, mem, same⟩ := List.mem_map.mp h
  obtain ⟨common, differs⟩ := List.mem_filter.mp mem
  cases same
  obtain ⟨hx, hy⟩ := Catalog.mem_common.mp common
  have named : x.name ≠ "" := by
    have kept := (List.mem_filter.mp (Catalog.mem_of_mem_ofList hx)).2
    simpa [Located.name] using kept
  refine ⟨x.name, named, ?_, ?_, run.differ direct sub (.namesakes common) differs⟩
  · rw [← find?_namedFields olds named, Catalog.find?_key hx]
    rfl
  · rw [← find?_namedFields news named, hy]
    rfl

omit direct in
theorem mem_unheld {fields others : List Field} {differs : Located → Located → Bool} {p : Field}
    (h : p ∈ ((oneSided fields others).filter
      fun x => (firstAt? others x.1.offset).all (differs x)).map (·.1)) :
    p ∈ fields ∧ (p.name = "" ∨ ∀ q ∈ others, q.name ≠ p.name)
      ∧ ∀ q, others.find? (fun q => q.offset == p.offset) = some q → ∃ x y, x.1 = p ∧ y.1 = q
        ∧ x ∈ oneSided fields others ∧ firstAt? others x.1.offset = some y
        ∧ differs x y = true := by
  obtain ⟨x, mem, rfl⟩ := List.mem_map.mp h
  obtain ⟨lone, unheld⟩ := List.mem_filter.mp mem
  obtain ⟨here, without⟩ := mem_oneSided.mp lone
  refine ⟨mem_of_mem_located here, without, ?_⟩
  intro q found
  rw [← firstAt?_map] at found
  obtain ⟨y, hy, rfl⟩ := Option.map_eq_some_iff.mp found
  rw [hy, Option.all_some] at unheld
  exact ⟨x, y, rfl, rfl, lone, hy, unheld⟩

theorem FieldsRun.removed_reason {olds news : List Field} {v : Answers} {r : FieldsResult}
    {fes : List Event} (run : FieldsRun olds news v fes r) (sub : fes ⊆ es) {p : Field}
    (h : p ∈ r.removed) : scope.FieldRemoved olds news p := by
  obtain ⟨here, without, unheld⟩ := mem_unheld (run.removed ▸ h)
  refine ⟨here, without, ?_⟩
  intro q found
  obtain ⟨x, y, rfl, rfl, lone, first, differs⟩ := unheld q found
  exact run.differ direct sub (.gone lone first) differs

theorem FieldsRun.added_reason {olds news : List Field} {v : Answers} {r : FieldsResult}
    {fes : List Event} (run : FieldsRun olds news v fes r) (sub : fes ⊆ es) {q : Field}
    (h : q ∈ r.added) : scope.FieldAdded olds news q := by
  obtain ⟨here, without, unheld⟩ := mem_unheld (run.added ▸ h)
  refine ⟨here, without, ?_⟩
  intro p found
  obtain ⟨y, x, rfl, rfl, lone, first, differs⟩ := unheld p found
  exact run.differ direct sub (.new lone first) differs

theorem BasesRun.differ {as bs : List Base} {bes : List Event} (run : BasesRun as bs bes false)
    (sub : bes ⊆ es) : scope.BasesDiffer as bs := by
  rcases run with ⟨-, run⟩ | ⟨length, -, -⟩
  · obtain ⟨x, y, mem, unlike | different⟩ := run.differ rfl
    · exact .inr ⟨x, y, mem, .inl unlike⟩
    · exact .inr ⟨x, y, mem, .inr (direct (different.mono sub))⟩
  · exact .inl length

omit direct in
theorem BasesRun.alike {as bs : List Base} {bes : List Event} (run : BasesRun as bs bes true) :
    as.length = bs.length ∧ ∀ x y, (x, y) ∈ as.zip bs → x.access = y.access := by
  rcases run with ⟨length, run⟩ | ⟨-, -, disagree⟩
  · exact ⟨length, fun x y mem => ((run.agree rfl).2 x y mem).1⟩
  · cases disagree

omit direct in
theorem FieldsRun.breaks_cases {v : Answers} {r : FieldsResult} {fes : List Event} {changed : Bool}
    (run : FieldsRun a.fields b.fields v fes r) (breaks : recordBreaks s t a b r changed = true) :
    (s.size ≠ t.size ∨ s.alignment ≠ t.alignment) ∨ a.access.downgradedTo b.access = true
      ∨ (!vtablesAgree a.vtable b.vtable) = true ∨ changed = true
      ∨ r.changed ≠ [] ∨ r.removed ≠ [] := by
  rw [recordBreaks, Bool.or_eq_true, Bool.or_eq_true, Bool.or_eq_true, Bool.or_eq_true,
    Bool.not_eq_true', TypeDecl.sameRoom_eq_false_iff, run.isDirect] at breaks
  rcases breaks with (((access | room) | vtable) | fields) | bases
  · exact .inr (.inl access)
  · exact .inl room
  · exact .inr (.inr (.inl vtable))
  · exact .inr (.inr (.inr (.inr fields)))
  · exact .inr (.inr (.inr (.inl bases)))

theorem RecordRun.reason (hs : s.shape = .record a) (ht : t.shape = .record b)
    (key : comparable s t a b) (run : RecordRun s t a b es d) (h : .reported ch ∈ es) :
    ∃ c, ch = .record c ∧ c.old = s ∧ c.new = t ∧ scope.RecordReason c := by
  obtain ⟨v, r, agree, fes, bes, fields, bases, breaks, rfl, hf, hb⟩ := run.reported h
  have disagree : (!agree) = true → scope.BasesDiffer a.bases b.bases := by
    intro changed
    rw [Bool.not_eq_true'] at changed
    subst changed
    exact bases.differ direct hb
  have keep : (!agree) = false → a.bases.length = b.bases.length
      ∧ ∀ x y, (x, y) ∈ a.bases.zip b.bases → x.access = y.access := by
    intro kept
    rw [Bool.not_eq_false'] at kept
    subst kept
    exact bases.alike
  have vtables : (!vtablesAgree a.vtable b.vtable) = true
      ↔ a.vtable.map Slot.seen ≠ b.vtable.map Slot.seen := by
    rw [Bool.not_eq_true', vtablesAgree_eq_false_iff]
  have found := fields.breaks_cases breaks
  refine ⟨_, rfl, rfl, rfl, hs, ht, key, ?_, ?_, ?_, ?_, roomChange?_eq_some, accessChange?_eq_some,
    vtables, disagree, keep, ?_⟩
  · rcases found with (size | alignment) | access | vtable | changed | lists
    · exact .inl size
    · exact .inr (.inl alignment)
    · exact .inr (.inr (.inr (.inl access)))
    · exact .inr (.inr (.inl (vtables.mp vtable)))
    · exact .inr (.inr (.inr (.inr (.inl (disagree changed)))))
    · exact .inr (.inr (.inr (.inr (.inr lists))))
  · exact fun p q mem => fields.changed_reason direct hf.subset mem
  · exact fun p mem => fields.removed_reason direct hf.subset mem
  · exact fun q mem => fields.added_reason direct hf.subset mem
  · rcases found with room | access | others
    · refine .inl (Option.ne_none_iff_exists'.mpr ⟨_, (roomChange?_eq_some _).mpr ⟨room, rfl⟩⟩)
    · have changed : a.access ≠ b.access := by
        intro same
        rw [same, Access.downgradedTo_self] at access
        cases access
      refine .inr (.inl (Option.ne_none_iff_exists'.mpr ?_))
      exact ⟨_, (accessChange?_eq_some _).mpr ⟨changed, rfl⟩⟩
    · exact .inr (.inr others)

/-- What a look reports has its reason in the two types, if the direct answers that it has got
are right. -/
theorem Scope.Looks.reason {i j : String} (look : scope.Looks i j es d)
    (h : .reported ch ∈ es) : scope.TypesReason i j ch := by
  cases look.reporter h with
  | enum resolves hs ht key found =>
      exact .enum resolves (enumChange_reason hs ht key (Bool.or_eq_true _ _ ▸ found))
  | record resolves hs ht key run =>
      obtain ⟨c, rfl, rfl, rfl, reason⟩ := run.reason direct hs ht key h
      exact .record resolves reason

end Looks

/-! ## The walk invents nothing -/

namespace Scope

variable {scope : Scope}

/-- A walk answers direct only for pairs that differ, and finds only what is justified. -/
theorem bounds_differ (scope : Scope) :
    scope.Bounds (fun _ => True) scope.DirectlyDiffers scope.Justified where
  parts _ _ := .intro
  answer _ look direct h := by
    rcases look.direct h with here | ⟨q, passes, different⟩
    · exact .here here
    · exact .through passes (direct different)
  reported _ look direct h := (look.reason direct h).justified

theorem justified_of_reason {e : Entry} {es : List Event} {c : Change}
    (entry : e ∈ scope.exports ∨ e ∈ scope.userTypes) (reason : e.Reason es c)
    (direct : ∀ {a b}, DirectIn es a b → scope.DirectlyDiffers (a, b)) : scope.Justified c := by
  cases reason with
  | function reason =>
      refine .function (commonFunction_of_entry entry) ?_
      rcases reason with access | here | ⟨a, b, part, different⟩
      · exact .inl access
      · exact .inr (.inl here)
      · exact .inr (.inr ⟨a, b, part, direct different⟩)
  | global reason =>
      refine .global (commonGlobal_of_entry entry) ?_
      exact reason.imp_right direct

theorem within_of_entry {e : Entry} (entry : e ∈ scope.exports ∨ e ∈ scope.userTypes) :
    Within (fun _ => True) scope.DirectlyDiffers scope.Justified e where
  asked _ _ := .intro
  reported run direct h := justified_of_reason entry (run.reason h) direct

end Scope

/-- Every finding is justified. -/
theorem findings_justified (old new : Interface) (policy : Policy) :
    ∀ f ∈ (compare old new policy).findings, (Scope.mk old new policy).Justified f.change := by
  rw [findings_compare]
  refine (Scope.mk old new policy).bounds_differ.of_walk ?_ ?_
  · exact fun e mem => Scope.within_of_entry (.inl mem)
  · exact fun e mem => Scope.within_of_entry (.inr mem)

/-- A global variable of a built-in type of the given size. -/
def sized (size : UInt64) : Interface :=
  { Interface.empty with
    types := .ofList [⟨"i", "int", "", "int", "", size, 4, .builtin ⟨false, true⟩⟩]
    globals := .ofList [⟨"g", "", "g", "i", .pub⟩] }

/-- The variable is found when its type takes other room, and for that reason. -/
theorem sized_justified : ∃ f ∈ (compare (sized 4) (sized 8) .plain).findings,
    (Scope.mk (sized 4) (sized 8) .plain).Justified f.change := by
  have found : ⟨.referenced, ["g"], .global ⟨"g", "", "g", "i", .pub⟩ ⟨"g", "", "g", "i", .pub⟩⟩
      ∈ (compare (sized 4) (sized 8) .plain).findings := by decide
  exact ⟨_, found, findings_justified _ _ _ _ found⟩

end AbiCompat
