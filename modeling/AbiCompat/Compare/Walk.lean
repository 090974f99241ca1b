/-
# Walking two type graphs side by side

A walk compares an id of the old graph with an id of the new one.  It notes each pair before it
looks at it and answers `same` for a pair that it has noted, so it ends on cyclic graphs; what such
a pair differs in was found at the first visit.

The rules for one pair of types take the comparison of other pairs as an argument,
`visit`.  `Scope.compareIds` ties the knot: its depth is bounded by the number of pairs of ids,
because every step down notes a new one.

This module has the state of a walk and the rules that need nothing but `visit`: lists of pairs,
signatures, virtual tables, and ids that do not resolve.  Records have a module of their own.
-/
import AbiCompat.Compare.Difference
import AbiCompat.Compare.Finding
import AbiCompat.Compare.Policy
import AbiCompat.Text.Search

namespace AbiCompat

/-- The state of a walk. -/
structure Walk where
  /-- The pairs that were looked at, the latest first. -/
  visited : List (String × String)
  /-- The names of what is being compared, innermost first. -/
  stack : List String
  /-- The findings so far, in order. -/
  findings : List Finding

/-- The state before the first step. -/
def Walk.start : Walk := ⟨[], [], []⟩

/-- A step of a walk. -/
abbrev Walking := StateM Walk

/-- The comparison of an old id with a new one. -/
abbrev Visit := String → String → Walking Difference

/-- What is compared, and by which policy. -/
structure Scope where
  old : Interface
  new : Interface
  policy : Policy

/-! ## Steps -/

namespace Walking

/-- Starts the path anew with these names. -/
def resetStack (names : List String) : Walking Unit := modify fun w => { w with stack := names }

/-- Adds a finding on the present path. -/
def report (reach : Reach) (change : Change) : Walking Unit :=
  modify fun w => { w with findings := w.findings ++ [⟨reach, w.stack.reverse, change⟩] }

/-- Notes a pair, and puts a name on the path. -/
def enter (pair : String × String) (name : String) : Walking Unit :=
  modify fun w => { w with visited := pair :: w.visited, stack := name :: w.stack }

/-- Takes the last name off the path. -/
def leave : Walking Unit := modify fun w => { w with stack := w.stack.tail }

end Walking

/-! ## Ids that do not resolve -/

/-- An id without the suffix of types that are defined more than once. -/
def withoutVariant (id : String) : String :=
  String.ofList (Text.before ['#', 'O', 'D', 'R', ':'] id.toList)

/-- The two ids that compilers give to the type of a variable argument list. -/
def vaListIds : List String := ["_ZTI9__va_list", "_ZTISt9__va_list"]

/-- The comparison of two ids of which at least one does not resolve. -/
def compareUnresolved (policy : Policy) (a b : String) : Difference :=
  if !policy.opaqueDiffers then .same
  else if withoutVariant a = withoutVariant b ∨ (a ∈ vaListIds ∧ b ∈ vaListIds) then .same
  else .unresolved

/-! ## Signatures -/

/-- Visits the pairs of two lists in order and combines the answers. -/
def visitPairs (visit : Visit) : List String → List String → Walking Difference
  | a :: as, b :: bs => do
    let d ← visit a b
    return d.combine (← visitPairs visit as bs)
  | _, _ => return .same

/-- Compares parameters of equal number, up to the first pair that differs. -/
def compareParams (visit : Visit) : List Param → List Param → Walking Difference
  | p :: ps, q :: qs => do
    let d ← visit p.typeId q.typeId
    if d.isDirect || p.hasDefault != q.hasDefault then return .direct
    else compareParams visit ps qs
  | _, _ => return .same

/-- Two signatures are the same to a caller or differ directly.  The template arguments
are visited for what they hold; only their number counts. -/
def compareSignatures (visit : Visit) (s t : Signature) : Walking Difference := do
  let params ←
    if s.params.length = t.params.length then compareParams visit s.params t.params
    else pure .direct
  let returns ← visit s.returns t.returns
  let sameCount : Bool := s.templateArgs.length = t.templateArgs.length
  if sameCount then
    let _ ← visitPairs visit s.templateArgs t.templateArgs
  return if params.isDirect || returns.isDirect || !sameCount then .direct else .same

/-! ## Virtual tables -/

/-- What a mangled name of a thunk starts with. -/
def thunkPrefixes : List String := ["_ZTv", "_ZTh", "_ZTc"]

/-- The name of the function that a thunk leads to: the adjustment between the mark of
the thunk and the nested name is dropped. -/
def withoutThunk (name : String) : String :=
  if thunkPrefixes.any (fun p => p.toList.isPrefixOf name.toList) then
    match name.toList.dropWhile (· != 'N') with
    | [] => name
    | nested => String.ofList ('_' :: 'Z' :: nested)
  else name

/-- Whether two slots mean the same to a caller. -/
def slotsAgree (s t : Slot) : Bool :=
  (s.name == t.name || withoutThunk s.name == withoutThunk t.name)
    && s.value == t.value && s.kind == t.kind

/-- Whether two tables have the same slots. -/
def vtablesAgree : List Slot → List Slot → Bool
  | [], [] => true
  | s :: ss, t :: ts => slotsAgree s t && vtablesAgree ss ts
  | _, _ => false

/-- A slot as a caller sees it. -/
def Slot.seen (s : Slot) : SlotKind × Int64 × String := (s.kind, s.value, withoutThunk s.name)

theorem slotsAgree_iff {s t : Slot} : slotsAgree s t = true ↔ s.seen = t.seen := by
  rw [Slot.seen, Slot.seen, slotsAgree]
  simp only [Bool.and_eq_true, Bool.or_eq_true, beq_iff_eq, Prod.mk.injEq]
  constructor
  · rintro ⟨⟨name, value⟩, kind⟩
    refine ⟨kind, value, ?_⟩
    rcases name with name | name
    · rw [name]
    · exact name
  · rintro ⟨kind, value, name⟩
    exact ⟨⟨.inr name, value⟩, kind⟩

theorem vtablesAgree_iff {as bs : List Slot} :
    vtablesAgree as bs = true ↔ as.map Slot.seen = bs.map Slot.seen := by
  induction as generalizing bs with
  | nil => cases bs <;> simp [vtablesAgree]
  | cons s as ih =>
      cases bs with
      | nil => simp [vtablesAgree]
      | cons t bs => simp [vtablesAgree, slotsAgree_iff, ih]

theorem vtablesAgree_eq_false_iff {as bs : List Slot} :
    vtablesAgree as bs = false ↔ as.map Slot.seen ≠ bs.map Slot.seen := by
  rw [← Bool.not_eq_true, vtablesAgree_iff]

@[simp] theorem vtablesAgree_self (as : List Slot) : vtablesAgree as as = true :=
  vtablesAgree_iff.mpr rfl

/-! ## Enumerations -/

/-- The values by name; of several with one name the last counts. -/
def EnumLayout.byName (e : EnumLayout) : Catalog Enumerator.name := .ofList e.enumerators

/-- How the values and the storage of an enumeration changed. -/
def Scope.enumChange (scope : Scope) (s t : TypeDecl) (a b : EnumLayout) : EnumChange :=
  let oldStorage := scope.old.typeName a.underlying
  let newStorage := scope.new.typeName b.underlying
  { old := s
    new := t
    underlying := if oldStorage = newStorage then none else some (oldStorage, newStorage)
    added := b.byName.without a.byName
    removed := a.byName.without b.byName
    changed := (a.byName.common b.byName).filter (fun p => p.1.value != p.2.value) }

/-- A change of an enumeration is a finding of its own; to a caller only an enumeration
of another key differs. -/
def Scope.compareEnums (scope : Scope) (reach : Reach) (s t : TypeDecl) (a b : EnumLayout) :
    Walking Difference := do
  if s.linkKey ≠ t.linkKey then return .direct
  else
    let change := scope.enumChange s t a b
    if change.isExtension || change.isIncompatible then
      Walking.report reach (.enum change)
    return .same

end AbiCompat
