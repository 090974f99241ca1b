/-
# Looking for a mark in a text

A mark is a list of characters that stand next to each other.  Whether one occurs is asked of
linker set keys, and what stands before it of ids.
-/

namespace AbiCompat.Text

def occurs (mark : List Char) : List Char → Bool
  | [] => mark.isEmpty
  | c :: cs => mark.isPrefixOf (c :: cs) || occurs mark cs

theorem occurs_iff {mark cs : List Char} : occurs mark cs = true ↔ mark <:+: cs := by
  induction cs with
  | nil => rw [occurs, List.isEmpty_iff, List.infix_nil]
  | cons c cs ih =>
      rw [occurs, Bool.or_eq_true, List.isPrefixOf_iff_prefix, ih, List.infix_cons_iff]

/-- The part before the first occurrence of a mark; everything if there is none. -/
def before (mark : List Char) : List Char → List Char
  | [] => []
  | c :: cs => if mark.isPrefixOf (c :: cs) then [] else c :: before mark cs

end AbiCompat.Text
