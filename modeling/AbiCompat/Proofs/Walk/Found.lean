/-
# What a walk finds anew

A walk only ever appends findings.  Those of the comparison of two declarations have the reach of
the walk; they are changes of types, which the looks report, and at most the change of the two
declarations themselves.  So functions and global variables are found among what is exported only,
and no enumeration is found for nothing.

`findings_split` is the shape of every list of findings: first what exported names reach, then
changes of types that they do not reach, which are looked for only if all types are to be compared.
-/
import AbiCompat.Proofs.Walk.Tour

namespace AbiCompat

/-- The changes that looks report: those of records, and of enumerations that have new values
or are incompatible. -/
inductive Change.OfType : Change → Prop
  | record (c : RecordChange) : OfType (.record c)
  | enum {c : EnumChange} : c.isExtension = true ∨ c.isIncompatible = true → OfType (.enum c)

/-- What the comparison of two declarations finds: changes of types, or theirs. -/
inductive Entry.Finds (e : Entry) (ch : Change) : Prop
  | ofType : ch.OfType → Finds e ch
  | function {f g : FunctionDecl} : e = .function f g → ch = .function f g → Finds e ch
  | global {f g : GlobalDecl} : e = .global f g → ch = .global f g → Finds e ch

/-! ## The clauses -/

section Clauses

variable {scope : Scope} {s t : TypeDecl} {es : List Event} {d : Difference} {ch : Change}

theorem RecordRun.ofType {a b : RecordLayout} (run : RecordRun s t a b es d)
    (h : .reported ch ∈ es) : ch.OfType := by
  obtain ⟨-, -, -, -, -, -, -, -, rfl, -⟩ := run.reported h
  exact .record _

theorem ofType_of_mem_reportOf_enum {c : EnumChange}
    (h : .reported ch ∈ reportOf (c.isExtension || c.isIncompatible) (.enum c)) : ch.OfType := by
  obtain ⟨found, same⟩ := mem_reportOf.mp h
  cases same
  exact .enum (Bool.or_eq_true _ _ ▸ found)

theorem Scope.TypesRun.ofType (run : scope.TypesRun s t es d) (h : .reported ch ∈ es) :
    ch.OfType := by
  cases run with
  | differ | builtin => exact absurd h List.not_mem_nil
  | target => cases List.mem_singleton.mp h
  | enum => exact ofType_of_mem_reportOf_enum h
  | record _ _ _ run => exact run.ofType h
  | function _ _ run => exact absurd h run.quiet

end Clauses

namespace Scope

variable {scope : Scope} {reach : Reach} {w w' : Walk} {es : List Event} {ch : Change}

theorem Looks.ofType {a b : String} {d : Difference} (look : scope.Looks a b es d)
    (h : .reported ch ∈ es) : ch.OfType := by
  cases look with
  | unresolved | ignored => exact absurd h List.not_mem_nil
  | types _ run => exact run.ofType h

/-! ## One comparison -/

/-- The later state has further findings, of this reach and with changes as `K` says. -/
def Finds (reach : Reach) (K : Change → Prop) (w w' : Walk) : Prop :=
  ∃ more, w'.findings = w.findings ++ more ∧ ∀ f ∈ more, f.reach = reach ∧ K f.change

theorem Finds.refl (reach : Reach) (K : Change → Prop) (w : Walk) : Finds reach K w w :=
  ⟨[], (List.append_nil _).symm, fun _ h => absurd h List.not_mem_nil⟩

theorem Finds.trans {K : Change → Prop} {w₁ : Walk} (h : Finds reach K w w₁)
    (h' : Finds reach K w₁ w') : Finds reach K w w' := by
  obtain ⟨more, eq, all⟩ := h
  obtain ⟨more', eq', all'⟩ := h'
  refine ⟨more ++ more', by rw [eq', eq, List.append_assoc], ?_⟩
  intro f mem
  exact (List.mem_append.mp mem).elim (all f) (all' f)

theorem Finds.mono {K K' : Change → Prop} (h : Finds reach K w w')
    (weaker : ∀ ch, K ch → K' ch) : Finds reach K' w w' := by
  obtain ⟨more, eq, all⟩ := h
  exact ⟨more, eq, fun f mem => ⟨(all f mem).1, weaker _ (all f mem).2⟩⟩

theorem Finds.congr {K : Change → Prop} {v v' : Walk} (h : Finds reach K w w')
    (before : v.findings = w.findings) (after : v'.findings = w'.findings) :
    Finds reach K v v' := by
  obtain ⟨more, eq, all⟩ := h
  exact ⟨more, by rw [after, before, eq], all⟩

theorem finds (scope : Scope) (reach : Reach) :
    scope.Invariant reach (fun w _ _ _ w' => Finds reach Change.OfType w w')
      (fun w es w' => Finds reach (fun ch => ch.OfType ∨ .reported ch ∈ es) w w') where
  done w := .refl reach _ w
  asked _ _ first rest := by
    refine Finds.trans (first.mono fun ch h => .inl h) (rest.mono fun ch h => ?_)
    exact h.imp_right (List.mem_cons_of_mem _)
  reported {w c es w'} _ rest := by
    have here : Finds reach (fun ch => ch.OfType ∨ Event.reported ch ∈ Event.reported c :: es) w
        (w.report reach c) := by
      refine ⟨[⟨reach, w.stack.reverse, c⟩], rfl, ?_⟩
      intro f mem
      cases List.mem_singleton.mp mem
      exact ⟨rfl, .inr List.mem_cons_self⟩
    exact here.trans (rest.mono fun ch h => h.imp_right (List.mem_cons_of_mem _))
  again {w _ _} _ := .refl reach _ w
  fresh _ look _ events := by
    refine (events.mono fun ch h => ?_).congr rfl rfl
    exact h.elim id look.ofType

/-! ## The whole walk -/

theorem Tour.finds {entries : List Entry} (tour : scope.Tour reach w entries w') :
    Finds reach (fun ch => ∃ e ∈ entries, e.Finds ch) w w' := by
  induction tour with
  | done w => exact .refl reach _ w
  | @step w w₁ w' e es rest trace run _ ih =>
      obtain ⟨events, -⟩ := (scope.finds reach).of_trace trace
      have first : Finds reach (fun ch => ∃ e' ∈ e :: rest, e'.Finds ch) w
          (w₁.resetStack []) := by
        refine (events.mono fun ch h => ⟨e, List.mem_cons_self, ?_⟩).congr rfl rfl
        rcases h with ofType | reported
        · exact .ofType ofType
        · cases run.reason reported with
          | function => exact .function rfl rfl
          | global => exact .global rfl rfl
      refine first.trans (ih.mono ?_)
      rintro ch ⟨e', mem, found⟩
      exact ⟨e', List.mem_cons_of_mem _ mem, found⟩

theorem userTypes_ofType {e : Entry} (mem : e ∈ scope.userTypes) (found : e.Finds ch) :
    ch.OfType := by
  cases found with
  | ofType h => exact h
  | function same => exact absurd (same ▸ mem) function_notMem_userTypes
  | global same => exact absurd (same ▸ mem) global_notMem_userTypes

end Scope

/-- The findings of a comparison: first what exported names reach, then changes of types
that they do not reach, which are looked for only if all types are to be compared. -/
theorem findings_split (old new : Interface) (policy : Policy) :
    ∃ exported others, (compare old new policy).findings = exported ++ others
      ∧ (∀ f ∈ exported, f.reach = .referenced
        ∧ ∃ e ∈ (Scope.mk old new policy).exports, e.Finds f.change)
      ∧ (∀ f ∈ others, f.reach = .unreferenced ∧ f.change.OfType)
      ∧ (policy.checkAll = false → others = []) := by
  obtain ⟨w, first, rest⟩ := (Scope.mk old new policy).walk_tour
  obtain ⟨exported, eq, all⟩ := first.finds
  obtain ⟨others, eq', all'⟩ := rest.finds
  refine ⟨exported, others, ?_, all, ?_, ?_⟩
  · rw [findings_compare, eq', eq]
    rfl
  · intro f mem
    obtain ⟨reach, e, listed, found⟩ := all' f mem
    refine ⟨reach, ?_⟩
    split at listed
    · exact Scope.userTypes_ofType listed found
    · exact absurd listed List.not_mem_nil
  · intro exportedOnly
    refine List.eq_nil_iff_forall_not_mem.mpr ?_
    intro f mem
    obtain ⟨-, e, listed, -⟩ := all' f mem
    rw [if_neg (by rw [exportedOnly]; exact Bool.false_ne_true)] at listed
    exact List.not_mem_nil listed

theorem findings_referenced {old new : Interface} {policy : Policy}
    (exportedOnly : policy.checkAll = false) :
    ∀ f ∈ (compare old new policy).findings, f.reach = .referenced := by
  obtain ⟨exported, others, same, inUse, -, none⟩ := findings_split old new policy
  intro f mem
  rw [same, none exportedOnly, List.append_nil] at mem
  exact (inUse f mem).1

end AbiCompat
