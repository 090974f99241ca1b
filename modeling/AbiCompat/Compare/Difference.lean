/-
# How much two things differ

The comparison of one pair answers with a `Difference`, and the answers for the parts of a whole
are combined to the most severe one.  Two questions are asked of a difference: whether there is
any, and whether the two are different types to a caller.  Both pass through `combine` as a
disjunction, and nothing else about combinations is used.
-/

namespace AbiCompat

/-- What the comparison of one pair says to whoever asked for it, by rising severity. -/
inductive Difference where
  /-- The two are the same to a caller. -/
  | same
  /-- Only something inside differs. -/
  | nested
  /-- The two themselves are incompatible. -/
  | direct
  /-- One of the two does not resolve, and that counts. -/
  | unresolved
deriving DecidableEq

namespace Difference

/-- The place in the order of severity. -/
def rank : Difference → Nat
  | same => 0
  | nested => 1
  | direct => 2
  | unresolved => 3

/-- The more severe of two differences. -/
def combine (a b : Difference) : Difference := if a.rank < b.rank then b else a

/-- Whether the two are different types to a caller. -/
def isDirect : Difference → Bool
  | direct | unresolved => true
  | same | nested => false

def isAny (d : Difference) : Bool := d != same

@[simp] theorem isDirect_same : same.isDirect = false := rfl

@[simp] theorem isDirect_nested : nested.isDirect = false := rfl

@[simp] theorem isDirect_direct : direct.isDirect = true := rfl

@[simp] theorem isAny_same : same.isAny = false := rfl

@[simp] theorem isAny_nested : nested.isAny = true := rfl

@[simp] theorem isAny_direct : direct.isAny = true := rfl

/-! ## Combining -/

@[simp] theorem same_combine (d : Difference) : same.combine d = d := by
  cases d <;> rfl

@[simp] theorem combine_same (d : Difference) : d.combine same = d := by
  cases d <;> rfl

@[simp] theorem isDirect_combine (a b : Difference) :
    (a.combine b).isDirect = (a.isDirect || b.isDirect) := by
  cases a <;> cases b <;> rfl

@[simp] theorem isAny_combine (a b : Difference) :
    (a.combine b).isAny = (a.isAny || b.isAny) := by
  cases a <;> cases b <;> rfl

end Difference

end AbiCompat
