/-
# Comparing types, functions and global variables

The clauses by the kind of two types, and the recursion that they are the body of.

A pair of ids that was looked at is the same.  Any other pair is noted before its types are looked
up, so that on a graph with cycles a comparison comes to an end.  Lean is shown that by a bound on
the depth, for which the pairs of ids are counted.  The bound is not a part of the algorithm: that
it is never reached is proved in `Proofs/Walk/Induction`, and that nothing hangs on it in
`Proofs/Walk/Ending`.

Functions and global variables start a path of their own with each comparison; what was noted
stays.
-/
import AbiCompat.Compare.Record

namespace AbiCompat

/-- Whether two built-in types differ, given that both are built-in. -/
def compareBuiltins (s t : TypeDecl) (a b : Builtin) : Difference :=
  if s.sameRoom t && a == b then .same else .direct

namespace Scope

/-- Compares two types that resolve.  Types of different kinds differ directly, and a
type whose new key is ignored is the same. -/
def compareTypes (scope : Scope) (visit : Visit) (reach : Reach) (s t : TypeDecl) :
    Walking Difference :=
  if scope.policy.ignores t.linkKey then return .same
  else
    match s.shape, t.shape with
    | .builtin a, .builtin b => return compareBuiltins s t a b
    | .qualified a, .qualified b => if a = b then visit s.target t.target else return .direct
    | .pointer, .pointer
    | .lvalueReference, .lvalueReference
    | .rvalueReference, .rvalueReference => visit s.target t.target
    | .array, .array => if s.sameRoom t then visit s.target t.target else return .direct
    | .enum a, .enum b => scope.compareEnums reach s t a b
    | .record a, .record b => compareRecords visit reach s t a b
    | .function a, .function b => compareSignatures visit a b
    | _, _ => return .direct

/-- Looks at a pair that was not looked at before. -/
def compareFresh (scope : Scope) (visit : Visit) (reach : Reach) : Visit := fun a b => do
  Walking.enter (a, b) (scope.old.typeName a)
  let d ←
    match scope.old.type? a, scope.new.type? b with
    | some s, some t => scope.compareTypes visit reach s t
    | _, _ => pure (compareUnresolved scope.policy a b)
  Walking.leave
  return d

/-- Compares two ids with a bound on the depth.  A pair that was looked at is the same;
so is every pair at depth zero, which a bound from the number of pairs never meets
unnoted. -/
def compareWithin (scope : Scope) (reach : Reach) : Nat → Visit
  | 0 => fun _ _ => return .same
  | depth + 1 => fun a b => do
    if (a, b) ∈ (← get).visited then return .same
    else scope.compareFresh (scope.compareWithin reach depth) reach a b

end Scope

/-! ## The ids of an interface -/

/-- The ids that a signature refers to. -/
def Signature.ids (s : Signature) : List String :=
  s.returns :: (s.params.map Param.typeId ++ s.templateArgs)

/-- The ids that the data of a shape refers to. -/
def Shape.ids : Shape → List String
  | record r => r.fields.map Field.typeId ++ r.bases.map Base.typeId ++ r.templateArgs
  | enum e => [e.underlying]
  | function s => s.ids
  | _ => []

/-- The ids that a type has and refers to. -/
def TypeDecl.ids (t : TypeDecl) : List String := t.id :: t.target :: t.shape.ids

/-- The ids that the types of an interface have and refer to. -/
def Interface.ids (m : Interface) : List String := m.types.items.flatMap TypeDecl.ids

namespace Scope

/-- A bound on the depth of a walk: the number of pairs of ids that it can meet, counting
the two it starts from. -/
def depth (scope : Scope) : Nat := (scope.old.ids.length + 1) * (scope.new.ids.length + 1)

/-- Compares an id of the old graph with an id of the new one. -/
def compareIds (scope : Scope) (reach : Reach) : Visit := scope.compareWithin reach scope.depth

/-! ## Entities that both versions have -/

/-- Compares two functions; a change of the signature or the access is a finding. -/
def compareFunctions (scope : Scope) (reach : Reach) (f g : FunctionDecl) :
    Walking Difference := do
  Walking.resetStack [f.name]
  let d ← compareSignatures (scope.compareIds reach) f.signature g.signature
  if d.isDirect || f.access != g.access then Walking.report reach (.function f g)
  Walking.resetStack []
  return d

/-- Compares two global variables; a change of the type or the access is a finding. -/
def compareGlobals (scope : Scope) (reach : Reach) (f g : GlobalDecl) :
    Walking Difference := do
  Walking.resetStack [f.name]
  let d ← scope.compareIds reach f.typeId g.typeId
  if d.isDirect || f.access != g.access then Walking.report reach (.global f g)
  Walking.resetStack []
  return d

/-- Compares two types that the author of the library declared. -/
def compareUserTypes (scope : Scope) (reach : Reach) (s t : TypeDecl) :
    Walking Difference := do
  Walking.resetStack []
  let d ← scope.compareIds reach s.id t.id
  Walking.resetStack []
  return d

end Scope

end AbiCompat
