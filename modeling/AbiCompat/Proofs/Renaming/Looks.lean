/-
# A look depends on the comparison of its parts only, and not on how ids are spelled

The rules for one pair of types take the comparison of other pairs as an argument.  Let there be
two such arguments, and let the second do to the renamed parts of a pair what the first does to the
parts.  Then a look at the renamed pair with the second does what a look at the pair with the first
does.

That is proved clause by clause, with `Follows` for "the second step does under other ids what the
first one does, from every good state".  `Follows` is closed under `pure` and `bind`, and so each
clause goes through as it is written, and nothing has to be said about what the looks ask for and
find.  The last theorem, `look`, is all that the walks need.

Which states are good is left open.  A report is the only step of the rules besides the comparison
of parts, so that the good states only have to stay good when a finding is added.
-/
import AbiCompat.Proofs.Renaming.Declarations
import AbiCompat.Proofs.Walk.Looks

namespace AbiCompat

/-- The state of a walk under other ids. -/
def Walk.rename (r : Renaming) (w : Walk) : Walk where
  visited := w.visited.map (Prod.map r.old r.new)
  stack := w.stack
  findings := w.findings.map (Finding.rename r)

@[simp] theorem Walk.rename_none (w : Walk) : w.rename .none = w := by
  have visited : Prod.map Renaming.none.old Renaming.none.new = id := rfl
  have findings : Finding.rename .none = id := funext Finding.rename_none
  rw [Walk.rename, visited, findings, List.map_id, List.map_id]

/-- From every good state, the second step does under other ids what the first one does, with
an answer that `f` makes of that of the first, and the state is good again. -/
def Follows {α β : Type} (r : Renaming) (good : Walk → Prop) (f : α → β) (x : Walking α)
    (y : Walking β) : Prop :=
  ∀ w, good w → y.run (w.rename r) = (f (x.run w).1, (x.run w).2.rename r) ∧ good (x.run w).2

/-- The second comparison does to the renamed pair what the first does to the pair. -/
abbrev FollowsAt (r : Renaming) (good : Walk → Prop) (visit visit' : Visit) (a b : String) :
    Prop :=
  Follows r good id (visit a b) (visit' (r.old a) (r.new b))

namespace Follows

variable {α β γ δ : Type} {r : Renaming} {good : Walk → Prop} {f : α → β} {g : γ → δ}

theorem pure {a : α} {b : β} (h : f a = b) : Follows r good f (Pure.pure a) (Pure.pure b) := by
  intro w start
  rw [← h]
  exact ⟨rfl, start⟩

theorem bind {x : Walking α} {y : Walking β} {next : α → Walking γ} {next' : β → Walking δ}
    (first : Follows r good f x y) (rest : ∀ a, Follows r good g (next a) (next' (f a))) :
    Follows r good g (x >>= next) (y >>= next') := by
  intro w start
  obtain ⟨same, kept⟩ := first w start
  obtain ⟨same', kept'⟩ := rest (x.run w).1 (x.run w).2 kept
  refine ⟨?_, kept'⟩
  rw [StateT.run_bind, same]
  exact same'

end Follows

section Clauses

variable {visit visit' : Visit} {r : Renaming} {good : Walk → Prop}

/-! ## Lists of parts -/

theorem visitPairs_follows : ∀ {as bs : List String},
    (∀ a b, (a, b) ∈ as.zip bs → FollowsAt r good visit visit' a b) →
      Follows r good id (visitPairs visit as bs)
        (visitPairs visit' (as.map r.old) (bs.map r.new))
  | [], _, _ => .pure rfl
  | _ :: _, [], _ => .pure rfl
  | _ :: _, _ :: _, all => by
      refine (all _ _ List.mem_cons_self).bind fun d => ?_
      have rest := visitPairs_follows fun a b mem => all a b (List.mem_cons_of_mem _ mem)
      exact rest.bind fun e => .pure rfl

theorem compareParams_follows : ∀ {ps qs : List Param},
    (∀ p q, (p, q) ∈ ps.zip qs → FollowsAt r good visit visit' p.typeId q.typeId) →
      Follows r good id (compareParams visit ps qs)
        (compareParams visit' (ps.map (Param.rename r.old)) (qs.map (Param.rename r.new)))
  | [], _, _ => .pure rfl
  | _ :: _, [], _ => .pure rfl
  | p :: _, q :: _, all => by
      refine (all _ _ List.mem_cons_self).bind fun d => ?_
      show Follows r good id
        (if d.isDirect || p.hasDefault != q.hasDefault then pure Difference.direct else _)
        (if d.isDirect || p.hasDefault != q.hasDefault then pure Difference.direct else _)
      split
      · exact .pure rfl
      · exact compareParams_follows fun p q mem => all p q (List.mem_cons_of_mem _ mem)

theorem basesAgreeFrom_follows : ∀ {as bs : List Base},
    (∀ x y, (x, y) ∈ as.zip bs → FollowsAt r good visit visit' x.typeId y.typeId) →
      Follows r good id (basesAgreeFrom visit as bs)
        (basesAgreeFrom visit' (as.map (Base.rename r.old)) (bs.map (Base.rename r.new)))
  | [], _, _ => .pure rfl
  | _ :: _, [], _ => .pure rfl
  | x :: _, y :: _, all => by
      refine (all _ _ List.mem_cons_self).bind fun d => ?_
      show Follows r good id (if d.isDirect || x.access != y.access then pure false else _)
        (if d.isDirect || x.access != y.access then pure false else _)
      split
      · exact .pure rfl
      · exact basesAgreeFrom_follows fun x y mem => all x y (List.mem_cons_of_mem _ mem)

theorem compareSignatures_follows {s t : Signature}
    (parts : ∀ {use a b}, s.Part t use a b → FollowsAt r good visit visit' a b) :
    Follows r good id (compareSignatures visit s t)
      (compareSignatures visit' (s.rename r.old) (t.rename r.new)) := by
  unfold compareSignatures
  simp only [Signature.rename, List.length_map]
  have params : Follows r good id
      (if s.params.length = t.params.length then compareParams visit s.params t.params
        else pure .direct)
      (if s.params.length = t.params.length then
        compareParams visit' (s.params.map (Param.rename r.old))
          (t.params.map (Param.rename r.new))
        else pure .direct) := by
    split
    · exact compareParams_follows fun p q mem => parts (.param mem)
    · exact .pure rfl
  rw [← bind_ite_eq, ← bind_ite_eq]
  refine params.bind fun d => (parts .returns).bind fun e => ?_
  dsimp only [id_eq]
  split
  · rename_i count
    have count := of_decide_eq_true count
    exact (visitPairs_follows fun a b mem => parts (.argument count mem)).bind fun _ => .pure rfl
  · exact .pure rfl

/-! ## Fields -/

theorem judge_follows {p q : Located}
    (part : FollowsAt r good visit visit' p.1.typeId q.1.typeId) (k : Docket) :
    Follows r good id ((judge visit p q).run k)
      ((judge visit' (p.rename r.old) (q.rename r.new)).run k) := by
  cases h : k.lookup (p.2, q.2) with
  | some j =>
      have h' : k.lookup ((p.rename r.old).2, (q.rename r.new).2) = some j := h
      rw [judge_run_of_some h, judge_run_of_some h']
      exact .pure rfl
  | none =>
      have h' : k.lookup ((p.rename r.old).2, (q.rename r.new).2) = none := h
      rw [judge_run_of_none h, judge_run_of_none h']
      exact part.bind fun d => .pure rfl

/-- One-sided fields are sorted in the same way if what stands at their offsets is judged in
the same way. -/
theorem reconcile_follows {judgeAt judgeAt' : Located → Option (Judging Judgement)}
    {move : Located → Located} : ∀ {items : List Located},
      (∀ p ∈ items, Option.Rel (fun x y => ∀ k : Docket, Follows r good id (x.run k) (y.run k))
        (judgeAt p) (judgeAt' (move p))) →
      ∀ k : Docket, Follows r good (fun x => ((x.1.1.map move, x.1.2), x.2))
        ((reconcile judgeAt items).run k) ((reconcile judgeAt' (items.map move)).run k)
  | [], _, k => .pure rfl
  | p :: items, all, k => by
      have rest := @reconcile_follows judgeAt judgeAt' move items fun p mem =>
        all p (List.mem_cons_of_mem _ mem)
      have here := all p List.mem_cons_self
      generalize hx : judgeAt p = x at here
      generalize hy : judgeAt' (move p) = y at here
      rw [List.map_cons]
      cases here with
      | none =>
          rw [reconcile_run_none items k hx, reconcile_run_none _ k hy]
          exact (rest k).bind fun z => .pure rfl
      | some judged =>
          rw [reconcile_run_some items k hx, reconcile_run_some _ k hy]
          refine (judged k).bind fun j => (rest j.2).bind fun z => .pure ?_
          dsimp only [id_eq]
          split <;> rfl

theorem compareNamed_follows : ∀ {items : List (Located × Located)},
    (∀ p q, (p, q) ∈ items → FollowsAt r good visit visit' p.1.typeId q.1.typeId) →
      ∀ k : Docket, Follows r good
        (fun x => ((x.1.1.map (Prod.map (Field.rename r.old) (Field.rename r.new)), x.1.2), x.2))
        ((compareNamed visit items).run k)
        ((compareNamed visit'
          (items.map (Prod.map (Located.rename r.old) (Located.rename r.new)))).run k)
  | [], _, k => .pure rfl
  | (p, q) :: items, all, k => by
      have rest := @compareNamed_follows items fun p q mem =>
        all p q (List.mem_cons_of_mem _ mem)
      rw [List.map_cons, Prod.map_apply, compareNamed_run, compareNamed_run]
      refine (judge_follows (all p q List.mem_cons_self) k).bind fun j =>
        (rest j.2).bind fun z => .pure ?_
      dsimp only [id_eq]
      split <;> rfl

/-- What two field lists were found to be, under other ids. -/
def FieldsResult.rename (r : Renaming) (x : FieldsResult) : FieldsResult :=
  { x with
    changed := x.changed.map (Prod.map (Field.rename r.old) (Field.rename r.new))
    removed := x.removed.map (Field.rename r.old)
    added := x.added.map (Field.rename r.new) }

theorem compareFields_follows {olds news : List Field}
    (parts : ∀ {use p q}, Judged olds news use p q →
      FollowsAt r good visit visit' p.1.typeId q.1.typeId) :
    Follows r good (FieldsResult.rename r) (compareFields visit olds news)
      (compareFields visit' (olds.map (Field.rename r.old)) (news.map (Field.rename r.new))) := by
  have passes : Follows r good (fun x => (x.1.rename r, x.2)) ((judgeFields visit olds news).run [])
      ((judgeFields visit' (olds.map (Field.rename r.old))
        (news.map (Field.rename r.new))).run []) := by
    rw [judgeFields_run, judgeFields_run, oneSided_rename, oneSided_rename, common_rename]
    refine (reconcile_follows (fun p hp => ?_) _).bind fun x =>
      (reconcile_follows (fun q hq => ?_) _).bind fun y =>
        (compareNamed_follows (fun p q mem => parts (.namesakes mem)) _).bind fun z => .pure ?_
    · have at_offset := @firstAt?_rename r.new news p.1.offset
      show Option.Rel _ _ ((firstAt? _ p.1.offset).map _)
      rw [at_offset]
      cases h : firstAt? news p.1.offset with
      | none => exact .none
      | some q => exact .some fun k => judge_follows (parts (.gone hp h)) k
    · have at_offset := @firstAt?_rename r.old olds q.1.offset
      show Option.Rel _ _ ((firstAt? _ q.1.offset).map _)
      rw [at_offset]
      cases h : firstAt? olds q.1.offset with
      | none => exact .none
      | some p => exact .some fun k => judge_follows (parts (.new hq h)) k
    · simp [FieldsResult.rename, fieldsDifference, Located.rename]
  exact passes.bind fun x => .pure rfl

/-! ## Records -/

theorem basesAgree_follows {as bs : List Base}
    (parts : ∀ x y, as.length = bs.length → (x, y) ∈ as.zip bs →
      FollowsAt r good visit visit' x.typeId y.typeId) :
    Follows r good id (basesAgree visit as bs)
      (basesAgree visit' (as.map (Base.rename r.old)) (bs.map (Base.rename r.new))) := by
  unfold basesAgree
  simp only [List.length_map]
  split
  · rename_i length
    exact basesAgreeFrom_follows fun x y mem => parts x y length mem
  · exact .pure rfl

theorem compareArguments_follows {as bs : List String}
    (parts : ∀ a b, as.length = bs.length → (a, b) ∈ as.zip bs →
      FollowsAt r good visit visit' a b) :
    Follows r good id (compareArguments visit as bs)
      (compareArguments visit' (as.map r.old) (bs.map r.new)) := by
  unfold compareArguments
  simp only [List.length_map]
  split
  · rename_i length
    exact visitPairs_follows fun a b mem => parts a b length mem
  · exact .pure rfl

/-! ## Steps that report

A report is the only step of the rules besides the comparison of parts, so that the states
have to stay good when a finding is added. -/

variable {reach : Reach} (reports : ∀ w change, good w → good (w.report reach change))
include reports

theorem reportIf_follows (flag : Bool) (change : Change) :
    Follows r good id (reportIf reach flag change) (reportIf reach flag (change.rename r)) := by
  intro w start
  cases flag with
  | true =>
      refine ⟨?_, reports w change start⟩
      show ((), (w.rename r).report reach (change.rename r))
        = ((), (w.report reach change).rename r)
      simp [Walk.rename, Walk.report, Finding.rename]
  | false => exact ⟨rfl, start⟩

theorem compareRecords_follows {s t : TypeDecl} {a b : RecordLayout}
    (parts : ∀ {use c d}, a.Part b use c d → FollowsAt r good visit visit' c d) :
    Follows r good id (compareRecords visit reach s t a b)
      (compareRecords visit' reach (s.rename r.old) (t.rename r.new) (a.rename r.old)
        (b.rename r.new)) := by
  by_cases h : comparable s t a b
  · have h' : comparable (s.rename r.old) (t.rename r.new) (a.rename r.old) (b.rename r.new) := h
    rw [compareRecords_eq h, compareRecords_eq h']
    refine (compareFields_follows fun judged => parts (.field judged)).bind fun fields => ?_
    refine (basesAgree_follows fun x y length mem => parts (.base length mem)).bind fun agree => ?_
    refine (reportIf_follows reports _ _).bind fun _ => ?_
    exact (compareArguments_follows fun c d length mem => parts (.argument length mem)).bind
      fun args => .pure rfl
  · have h' : ¬ comparable (s.rename r.old) (t.rename r.new) (a.rename r.old) (b.rename r.new) := h
    rw [compareRecords_eq_of_not h, compareRecords_eq_of_not h']
    exact .pure rfl

theorem compareEnums_follows {scope scope' : Scope} {s t : TypeDecl} {a b : EnumLayout}
    (old : scope'.old.typeName (r.old a.underlying) = scope.old.typeName a.underlying)
    (new : scope'.new.typeName (r.new b.underlying) = scope.new.typeName b.underlying) :
    Follows r good id (scope.compareEnums reach s t a b)
      (scope'.compareEnums reach (s.rename r.old) (t.rename r.new) (a.rename r.old)
        (b.rename r.new)) := by
  by_cases key : s.linkKey = t.linkKey
  · have key' : (s.rename r.old).linkKey = (t.rename r.new).linkKey := key
    have change : scope'.enumChange (s.rename r.old) (t.rename r.new) (a.rename r.old)
        (b.rename r.new) = (scope.enumChange s t a b).rename r := by
      unfold Scope.enumChange
      simp only [EnumLayout.rename, old, new]
      rfl
    rw [compareEnums_eq scope key, compareEnums_eq scope' key', change]
    exact (reportIf_follows reports _ _).bind fun _ => .pure rfl
  · have key' : (s.rename r.old).linkKey ≠ (t.rename r.new).linkKey := key
    unfold Scope.compareEnums
    rw [if_pos key, if_pos key']
    exact .pure rfl

/-! ## Looks

What the clauses for types ask of two scopes is that the same new types are left out, and that the
types which store enumerations have the same names. -/

theorem compareTypes_follows {scope scope' : Scope} {s t : TypeDecl}
    (ignores : scope'.policy.ignores t.linkKey = scope.policy.ignores t.linkKey)
    (old : ∀ id ∈ s.refs, scope'.old.typeName (r.old id) = scope.old.typeName id)
    (new : ∀ id ∈ t.refs, scope'.new.typeName (r.new id) = scope.new.typeName id)
    (parts : scope.policy.ignores t.linkKey = false → ∀ {use c d}, s.Part t use c d →
      FollowsAt r good visit visit' c d) :
    Follows r good id (scope.compareTypes visit reach s t)
      (scope'.compareTypes visit' reach (s.rename r.old) (t.rename r.new)) := by
  have ignores' : scope'.policy.ignores (t.rename r.new).linkKey = scope.policy.ignores t.linkKey :=
    ignores
  unfold Scope.compareTypes
  rw [ignores', TypeDecl.shape_rename, TypeDecl.shape_rename]
  split
  · exact .pure rfl
  · rename_i kept
    have parts {use : Use} {c d : String} (part : s.Part t use c d) :
        FollowsAt r good visit visit' c d := parts (Bool.not_eq_true _ ▸ kept) part
    have target {x y : Shape} (hs : s.shape = x) (ht : t.shape = y) (kind : x.kind = y.kind)
        (target : x.kind.hasTarget = true) :
        FollowsAt r good visit visit' s.target t.target := by
      rw [← TypeDecl.kind_of_shape hs] at kind target
      rw [← TypeDecl.kind_of_shape ht] at kind
      exact parts (.target kind target)
    cases hs : s.shape <;> cases ht : t.shape
    case pointer.pointer => exact target hs ht rfl rfl
    case lvalueReference.lvalueReference => exact target hs ht rfl rfl
    case rvalueReference.rvalueReference => exact target hs ht rfl rfl
    case qualified.qualified a b =>
      show Follows r good id (if a = b then _ else pure Difference.direct)
        (if a = b then _ else pure Difference.direct)
      split
      · exact target hs ht rfl rfl
      · exact .pure rfl
    case array.array =>
      show Follows r good id (if s.sameRoom t then _ else pure Difference.direct)
        (if s.sameRoom t then _ else pure Difference.direct)
      split
      · exact target hs ht rfl rfl
      · exact .pure rfl
    case enum.enum a b =>
      exact compareEnums_follows reports
        (old _ (TypeDecl.mem_refs_of_shape hs List.mem_cons_self))
        (new _ (TypeDecl.mem_refs_of_shape ht List.mem_cons_self))
    case record.record a b =>
      exact compareRecords_follows reports fun part => parts (.layout hs ht part)
    case function.function a b =>
      exact compareSignatures_follows fun part => parts (.signature hs ht part)
    -- built-in types have no parts, and types of two kinds are not looked into
    all_goals exact .pure rfl

end Clauses

/-! ## The same types under other ids -/

/-- Under other ids, the second interface has the types that the first one has under the ids of
`A`.  These are closed under references, and two of them do not become one. -/
structure Interface.SameUnder (ρ : String → String) (A : String → Prop) (m m' : Interface) :
    Prop where
  refs : ∀ {id id' t}, A id → m.type? id = some t → id' ∈ t.refs → A id'
  types : ∀ {id}, A id → m'.type? (ρ id) = (m.type? id).map (TypeDecl.rename ρ)
  apart : ∀ {id id'}, A id → A id' → ρ id = ρ id' → id = id'

/-- Under other ids, two scopes are the same to the comparison of the ids of `A` with those of
`B`. -/
structure Scope.SameUnder (r : Renaming) (A B : String → Prop) (scope scope' : Scope) : Prop where
  old : scope.old.SameUnder r.old A scope'.old
  new : scope.new.SameUnder r.new B scope'.new
  ignores : ∀ key, scope'.policy.ignores key = scope.policy.ignores key
  unresolved : ∀ {a b}, A a → B b → compareUnresolved scope'.policy (r.old a) (r.new b)
    = compareUnresolved scope.policy a b

theorem Interface.SameUnder.refl (m : Interface) : m.SameUnder id (fun _ => True) m where
  refs _ _ _ := trivial
  types {id} _ := by simp
  apart _ _ same := same

theorem Scope.SameUnder.refl (scope : Scope) :
    scope.SameUnder .none (fun _ => True) (fun _ => True) scope where
  old := .refl scope.old
  new := .refl scope.new
  ignores _ := rfl
  unresolved _ _ := rfl

theorem Interface.SameUnder.typeName {ρ : String → String} {A : String → Prop} {m m' : Interface}
    (same : m.SameUnder ρ A m') {id : String} (within : A id) :
    m'.typeName (ρ id) = m.typeName id := by
  unfold Interface.typeName
  rw [same.types within]
  cases m.type? id <;> rfl

namespace Scope.SameUnder

variable {r : Renaming} {A B : String → Prop} {scope scope' : Scope} {visit visit' : Visit}
  {good : Walk → Prop} {reach : Reach} {a b : String}

theorem parts (same : scope.SameUnder r A B scope') {use : Use} {p q : String × String}
    (within : A p.1 ∧ B p.2) (part : scope.Parts use p q) : A q.1 ∧ B q.2 := by
  obtain ⟨s, t, resolves, part⟩ := part
  obtain ⟨old, new⟩ := part.mem_refs
  exact ⟨same.old.refs within.1 resolves.old old, same.new.refs within.2 resolves.new new⟩

/-- A look at a renamed pair does what a look at the pair does, if the comparison of the parts
does so. -/
theorem look (same : scope.SameUnder r A B scope')
    (reports : ∀ w change, good w → good (w.report reach change)) (within : A a ∧ B b)
    (parts : ∀ {use c d}, scope.Parts use (a, b) (c, d) →
      FollowsAt r good visit visit' c d) :
    FollowsAt r good (scope.look visit reach) (scope'.look visit' reach) a b := by
  unfold FollowsAt Scope.look
  rw [same.old.types within.1, same.new.types within.2, same.unresolved within.1 within.2]
  cases hs : scope.old.type? a with
  | none => exact .pure rfl
  | some s =>
      cases ht : scope.new.type? b with
      | none => exact .pure rfl
      | some t =>
          refine compareTypes_follows reports (same.ignores _) ?_ ?_ ?_
          · intro id mem
            exact same.old.typeName (same.old.refs within.1 hs mem)
          · intro id mem
            exact same.new.typeName (same.new.refs within.2 ht mem)
          · intro kept use c d part
            exact parts ⟨s, t, ⟨hs, ht, kept⟩, part⟩

end Scope.SameUnder

end AbiCompat
