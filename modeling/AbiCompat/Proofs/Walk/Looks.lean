/-
# What a look at one pair does

`Looks` says of a pair of ids what its comparison asks for, reports and answers, clause by
clause.  It is a relation between the pair, a list of events and an answer; the answers for the
parts are in the events, so that the relation knows nothing of walks.  `look_does` says that the
look of the program is one of those.

Everything that is proved about walks goes through `Looks`: no later proof opens a clause of the
program.  When a clause is changed, this module and `Answers` are the ones to see to.

A pair of ids that does not resolve, or whose new type is left out, is answered at once.  So are
two types that differ by themselves, unless they are functions, which are looked into all the
same.  References, qualified types and arrays answer what their targets answer.  Records and
enumerations report, and answer with a difference inside at most.
-/
import AbiCompat.Proofs.Walk.Fields

namespace AbiCompat

/-! ## Records -/

/-- What is known of two lists of bases when they have been compared. -/
def BasesRun (as bs : List Base) (es : List Event) (agree : Bool) : Prop :=
  as.length = bs.length ∧ UpToRun Base.typeId Base.Alike (as.zip bs) es agree
    ∨ as.length ≠ bs.length ∧ es = [] ∧ agree = false

/-- What is known of two lists of template arguments when they have been compared. -/
def ArgumentsRun (as bs : List String) (es : List Event) (d : Difference) : Prop :=
  as.length = bs.length ∧ PairsRun (as.zip bs) es d
    ∨ as.length ≠ bs.length ∧ es = [] ∧ d = .direct

/-- Whether the comparison of two records ends in a finding. -/
def recordBreaks (s t : TypeDecl) (a b : RecordLayout) (r : FieldsResult) (basesChanged : Bool) :
    Bool :=
  a.access.downgradedTo b.access || !s.sameRoom t || !vtablesAgree a.vtable b.vtable
    || r.difference.isDirect || basesChanged

/-- The finding. -/
def recordChange (s t : TypeDecl) (a b : RecordLayout) (r : FieldsResult) (basesChanged : Bool) :
    RecordChange where
  old := s
  new := t
  oldLayout := a
  newLayout := b
  room := roomChange? s t
  access := accessChange? a b
  vtableChanged := !vtablesAgree a.vtable b.vtable
  basesChanged := basesChanged
  fieldsChanged := r.changed
  fieldsRemoved := r.removed
  fieldsAdded := r.added

/-- Two records are comparable when they share their key or one has no name of its own. -/
def comparable (s t : TypeDecl) (a b : RecordLayout) : Prop :=
  a.isAnonymous = true ∨ b.isAnonymous = true ∨ s.linkKey = t.linkKey

/-- Fields, bases and template arguments in this order, with the finding, if there is one,
before the last. -/
inductive RecordRun (s t : TypeDecl) (a b : RecordLayout) : List Event → Difference → Prop
  | mk {v : Answers} {r : FieldsResult} {agree : Bool} {args : Difference}
      {fes bes aes : List Event} :
      FieldsRun a.fields b.fields v fes r → BasesRun a.bases b.bases bes agree →
      ArgumentsRun a.templateArgs b.templateArgs aes args →
      RecordRun s t a b
        (fes ++ (bes ++ (reportOf (recordBreaks s t a b r (!agree))
          (.record (recordChange s t a b r (!agree))) ++ aes)))
        (if recordBreaks s t a b r (!agree) || r.difference.isAny || args.isAny
          then .nested else .same)

/-! ## Types -/

/-- What the clause for the kind of two types does.  Functions are looked into even if they
differ by themselves. -/
inductive Scope.TypesRun (scope : Scope) (s t : TypeDecl) : List Event → Difference → Prop
  | differ : s.Differs t → (s.kind = t.kind → s.kind ≠ .function) → TypesRun scope s t [] .direct
  | builtin {a b : Builtin} : s.shape = .builtin a → t.shape = .builtin b → ¬ s.Differs t →
      TypesRun scope s t [] .same
  | target {d : Difference} : s.kind = t.kind → s.kind.hasTarget = true → ¬ s.Differs t →
      TypesRun scope s t [.asked s.target t.target d] d
  | enum {a b : EnumLayout} : s.shape = .enum a → t.shape = .enum b → s.linkKey = t.linkKey →
      TypesRun scope s t (reportOf
        ((scope.enumChange s t a b).isExtension || (scope.enumChange s t a b).isIncompatible)
        (.enum (scope.enumChange s t a b))) .same
  | record {a b : RecordLayout} {es : List Event} {d : Difference} : s.shape = .record a →
      t.shape = .record b → comparable s t a b → RecordRun s t a b es d →
      TypesRun scope s t es d
  | function {a b : Signature} {es : List Event} {d : Difference} : s.shape = .function a →
      t.shape = .function b → SignatureRun a b es d → TypesRun scope s t es d

/-- What a look at a pair does. -/
inductive Scope.Looks (scope : Scope) (a b : String) : List Event → Difference → Prop
  | unresolved : scope.old.type? a = none ∨ scope.new.type? b = none →
      Looks scope a b [] (compareUnresolved scope.policy a b)
  | ignored {s t : TypeDecl} : scope.old.type? a = some s → scope.new.type? b = some t →
      scope.policy.ignores t.linkKey = true → Looks scope a b [] .same
  | types {s t : TypeDecl} {es : List Event} {d : Difference} : scope.Resolves a b s t →
      scope.TypesRun s t es d → Looks scope a b es d

/-! ## The clauses do what is said -/

theorem TypeDecl.kind_of_shape {t : TypeDecl} {x : Shape} (h : t.shape = x) : t.kind = x.kind := by
  rw [TypeDecl.kind, h]

theorem TypeDecl.kind_ne_function {t : TypeDecl} {x : Shape} (h : t.shape = x)
    (other : x.kind ≠ .function) : t.kind ≠ .function := by
  rw [TypeDecl.kind_of_shape h]
  exact other

section Clauses

variable {visit : Visit} {reach : Reach}

theorem basesAgree_does (as bs : List Base) :
    Does visit reach (basesAgree visit as bs) (BasesRun as bs) := by
  unfold basesAgree
  split
  · rename_i length
    exact (basesAgreeFrom_does as bs).mono fun _ _ run => .inl ⟨length, run⟩
  · rename_i length
    exact Does.pure (.inr ⟨length, rfl, rfl⟩)

/-- The comparison of two lists of template arguments. -/
def compareArguments (visit : Visit) (as bs : List String) : Walking Difference :=
  if as.length = bs.length then visitPairs visit as bs else pure .direct

theorem compareArguments_does (as bs : List String) :
    Does visit reach (compareArguments visit as bs) (ArgumentsRun as bs) := by
  unfold compareArguments
  split
  · rename_i length
    exact (visitPairs_does as bs).mono fun _ _ run => .inl ⟨length, run⟩
  · rename_i length
    exact Does.pure (.inr ⟨length, rfl, rfl⟩)

/-- A report that depends on a flag. -/
def reportIf (reach : Reach) (flag : Bool) (change : Change) : Walking Unit :=
  if flag then Walking.report reach change else pure ()

theorem reportIf_does {flag : Bool} {change : Change} :
    Does visit reach (reportIf reach flag change)
      (fun es _ => es = reportOf flag change) := by
  cases flag with
  | true => exact Does.report
  | false => exact Does.pure rfl

/-- The comparison of two records as a sequence of steps. -/
theorem compareRecords_eq {s t : TypeDecl} {a b : RecordLayout} (h : comparable s t a b) :
    compareRecords visit reach s t a b = (do
      let fields ← compareFields visit a.fields b.fields
      let agree ← basesAgree visit a.bases b.bases
      reportIf reach (recordBreaks s t a b fields (!agree))
        (.record (recordChange s t a b fields (!agree)))
      let args ← compareArguments visit a.templateArgs b.templateArgs
      return if recordBreaks s t a b fields (!agree) || fields.difference.isAny || args.isAny
        then .nested else .same) := by
  unfold compareRecords
  rw [if_neg (by simp only [Bool.and_eq_true, Bool.not_eq_true', bne_iff_ne]
                 unfold comparable at h
                 grind)]
  refine bind_congr fun fields => bind_congr fun agree => ?_
  unfold reportIf compareArguments
  rw [bind_ite_eq, bind_ite_eq]
  rfl

theorem not_comparable {s t : TypeDecl} {a b : RecordLayout} (h : ¬ comparable s t a b) :
    a.isAnonymous = false ∧ b.isAnonymous = false ∧ s.linkKey ≠ t.linkKey := by
  unfold comparable at h
  grind

theorem compareRecords_eq_of_not {s t : TypeDecl} {a b : RecordLayout}
    (h : ¬ comparable s t a b) : compareRecords visit reach s t a b = pure .direct := by
  obtain ⟨ha, hb, key⟩ := not_comparable h
  unfold compareRecords
  rw [if_pos (by simp [ha, hb, key])]

theorem compareRecords_does (s t : TypeDecl) (a b : RecordLayout) (h : comparable s t a b) :
    Does visit reach (compareRecords visit reach s t a b) (RecordRun s t a b) := by
  rw [compareRecords_eq h]
  refine Does.bind (compareFields_does a.fields b.fields) ?_
  rintro fes r ⟨v, fields⟩
  refine Does.bind (basesAgree_does a.bases b.bases) ?_
  intro bes agree bases
  refine Does.bind reportIf_does ?_
  rintro _ _ rfl
  refine Does.bind (compareArguments_does _ _) ?_
  intro aes args arguments
  refine Does.pure ?_
  rw [List.append_nil]
  exact .mk fields bases arguments

theorem compareEnums_eq (scope : Scope) {s t : TypeDecl} {a b : EnumLayout}
    (key : s.linkKey = t.linkKey) :
    scope.compareEnums reach s t a b = (do
      reportIf reach
        ((scope.enumChange s t a b).isExtension || (scope.enumChange s t a b).isIncompatible)
        (.enum (scope.enumChange s t a b))
      return .same) := by
  unfold Scope.compareEnums
  rw [if_neg (not_not_intro key)]
  unfold reportIf
  rw [bind_ite_eq]
  rfl

theorem compareEnums_does (scope : Scope) {s t : TypeDecl} {a b : EnumLayout}
    (hs : s.shape = .enum a) (ht : t.shape = .enum b) :
    Does visit reach (scope.compareEnums reach s t a b) (scope.TypesRun s t) := by
  by_cases key : s.linkKey = t.linkKey
  · rw [compareEnums_eq scope key]
    refine Does.bind reportIf_does ?_
    rintro _ _ rfl
    refine Does.pure ?_
    rw [List.append_nil]
    exact .enum hs ht key
  · unfold Scope.compareEnums
    rw [if_pos key]
    exact Does.pure (.differ (.enum hs ht key) fun _ => TypeDecl.kind_ne_function hs nofun)

theorem TypeDecl.not_differs_of_reference {s t : TypeDecl} {x : Shape} (hs : s.shape = x)
    (ht : t.shape = x) (reference : x = .pointer ∨ x = .lvalueReference ∨ x = .rvalueReference) :
    ¬ s.Differs t := by
  intro h
  rcases reference with rfl | rfl | rfl <;> cases h <;> simp_all [TypeDecl.kind]

theorem TypeDecl.not_differs_of_qualified {s t : TypeDecl} {a : Qualifiers}
    (hs : s.shape = .qualified a) (ht : t.shape = .qualified a) : ¬ s.Differs t := by
  intro h
  cases h <;> simp_all [TypeDecl.kind]

theorem TypeDecl.not_differs_of_array {s t : TypeDecl} (hs : s.shape = .array)
    (ht : t.shape = .array) (room : s.sameRoom t = true) : ¬ s.Differs t := by
  intro h
  cases h <;> simp_all [TypeDecl.kind, TypeDecl.sameRoom]

theorem compareBuiltins_eq_direct_iff {s t : TypeDecl} {a b : Builtin} :
    compareBuiltins s t a b = .direct ↔ s.size ≠ t.size ∨ s.alignment ≠ t.alignment
      ∨ a.isUnsigned ≠ b.isUnsigned ∨ a.isIntegral ≠ b.isIntegral := by
  obtain ⟨u, i⟩ := a
  obtain ⟨u', i'⟩ := b
  simp only [compareBuiltins, TypeDecl.sameRoom]
  grind

theorem TypeDecl.differs_builtin_iff {s t : TypeDecl} {a b : Builtin}
    (hs : s.shape = .builtin a) (ht : t.shape = .builtin b) :
    s.Differs t ↔ compareBuiltins s t a b = .direct := by
  rw [compareBuiltins_eq_direct_iff]
  constructor
  · intro h
    cases h with
    | builtin hs' ht' h =>
        cases hs.symm.trans hs'
        cases ht.symm.trans ht'
        exact h
    | kind h => simp [TypeDecl.kind, hs, ht, Shape.kind] at h
    | qualified hs' | array hs' | enum hs' | record hs' | function hs' => simp [hs] at hs'
  · intro h
    exact .builtin hs ht h

/-- A step that asks for the targets and answers what they answer. -/
theorem targets_does (scope : Scope) {s t : TypeDecl} {x y : Shape} (hs : s.shape = x)
    (ht : t.shape = y) (kind : x.kind = y.kind) (target : x.kind.hasTarget = true)
    (alike : ¬ s.Differs t) :
    Does visit reach (visit s.target t.target) (scope.TypesRun s t) := by
  refine Does.ask.mono ?_
  rintro _ d rfl
  refine .target ?_ ?_ alike
  · rw [TypeDecl.kind_of_shape hs, TypeDecl.kind_of_shape ht, kind]
  · rw [TypeDecl.kind_of_shape hs, target]

theorem compareTypes_does (scope : Scope) (s t : TypeDecl)
    (kept : scope.policy.ignores t.linkKey = false) :
    Does visit reach (scope.compareTypes visit reach s t) (scope.TypesRun s t) := by
  unfold Scope.compareTypes
  rw [if_neg (by rw [kept]; exact Bool.false_ne_true)]
  split
  · rename_i a b hs ht
    have rule := TypeDecl.differs_builtin_iff hs ht
    refine Does.pure ?_
    by_cases h : compareBuiltins s t a b = .direct
    · rw [h]
      exact .differ (rule.mpr h) fun _ => TypeDecl.kind_ne_function hs nofun
    · have same : compareBuiltins s t a b = .same := by
        unfold compareBuiltins at h ⊢
        split
        · rfl
        · simp_all
      rw [same]
      exact .builtin hs ht (fun differs => h (rule.mp differs))
  · rename_i a b hs ht
    split
    · rename_i same
      subst same
      exact targets_does scope hs ht rfl rfl (TypeDecl.not_differs_of_qualified hs ht)
    · rename_i other
      exact Does.pure (.differ (.qualified hs ht other) fun _ =>
        TypeDecl.kind_ne_function hs nofun)
  · rename_i hs ht
    exact targets_does scope hs ht rfl rfl (TypeDecl.not_differs_of_reference hs ht (by simp))
  · rename_i hs ht
    exact targets_does scope hs ht rfl rfl (TypeDecl.not_differs_of_reference hs ht (by simp))
  · rename_i hs ht
    exact targets_does scope hs ht rfl rfl (TypeDecl.not_differs_of_reference hs ht (by simp))
  · rename_i hs ht
    split
    · rename_i room
      exact targets_does scope hs ht rfl rfl (TypeDecl.not_differs_of_array hs ht room)
    · rename_i room
      refine Does.pure (.differ (.array hs ht ?_) fun _ => TypeDecl.kind_ne_function hs nofun)
      exact TypeDecl.sameRoom_eq_false_iff.mp (Bool.eq_false_iff.mpr room)
  · rename_i a b hs ht
    exact compareEnums_does scope hs ht
  · rename_i a b hs ht
    by_cases h : comparable s t a b
    · exact (compareRecords_does s t a b h).mono fun _ _ run => .record hs ht h run
    · rw [compareRecords_eq_of_not h]
      obtain ⟨ha, hb, key⟩ := not_comparable h
      exact Does.pure (.differ (.record hs ht ha hb key) fun _ =>
        TypeDecl.kind_ne_function hs nofun)
  · rename_i a b hs ht
    exact (compareSignatures_does a b).mono fun _ _ run => .function hs ht run
  · have kinds : s.kind ≠ t.kind := by
      intro kind
      cases hs : s.shape <;> cases ht : t.shape <;> simp_all [TypeDecl.kind, Shape.kind]
    exact Does.pure (.differ (.kind kinds) fun same => absurd same kinds)

/-- The look at a pair, without the note that it is looked at. -/
def Scope.look (scope : Scope) (visit : Visit) (reach : Reach) (a b : String) :
    Walking Difference :=
  match scope.old.type? a, scope.new.type? b with
  | some s, some t => scope.compareTypes visit reach s t
  | _, _ => pure (compareUnresolved scope.policy a b)

theorem look_does (scope : Scope) (a b : String) :
    Does visit reach (scope.look visit reach a b) (scope.Looks a b) := by
  unfold Scope.look
  split
  · rename_i s t hs ht
    cases kept : scope.policy.ignores t.linkKey with
    | true =>
        unfold Scope.compareTypes
        rw [if_pos kept]
        exact Does.pure (.ignored hs ht kept)
    | false =>
        exact (compareTypes_does scope s t kept).mono fun _ _ run => .types ⟨hs, ht, kept⟩ run
  · rename_i h
    refine Does.pure (.unresolved ?_)
    cases hs : scope.old.type? a with
    | none => exact .inl rfl
    | some s =>
        cases ht : scope.new.type? b with
        | none => exact .inr rfl
        | some t => exact absurd ht (h s t hs)

theorem compareFresh_eq (scope : Scope) (a b : String) :
    scope.compareFresh visit reach a b = (do
      Walking.enter (a, b) (scope.old.typeName a)
      let d ← scope.look visit reach a b
      Walking.leave
      return d) := by
  unfold Scope.compareFresh Scope.look
  refine bind_congr ?_
  intro _
  cases scope.old.type? a with
  | none => rfl
  | some s => cases scope.new.type? b <;> rfl

/-- A fresh look notes the pair, looks, and takes the name off the path. -/
theorem compareFresh_run (scope : Scope) (a b : String) (w : Walk) :
    ∃ es w', scope.Looks a b es ((scope.compareFresh visit reach a b).run w).1
      ∧ Trace visit reach (w.enter (a, b) (scope.old.typeName a)) es w'
      ∧ ((scope.compareFresh visit reach a b).run w).2 = w'.leave := by
  obtain ⟨es, trace, looks⟩ := @look_does visit reach scope a b
    (w.enter (a, b) (scope.old.typeName a))
  rw [compareFresh_eq]
  exact ⟨es, _, looks, trace, rfl⟩

end Clauses

end AbiCompat
