/-
# What can be wrong with a JSON text

A text is malformed, or it ends too early, or it is well formed as far as it was read and does not
fit its schema.  The last kind has the wording in which programs report it.  Where in the text a
fault lies is not part of a fault, and texts that are not JSON have one wording each for the first
two kinds, whatever is wrong with them.
-/
import AbiCompat.Json.Basic
import AbiCompat.Text.Quoted
import AbiCompat.Json.Float

namespace AbiCompat

/-- What stands where something else was wanted. -/
inductive Found where
  | null
  | flag (b : Bool)
  | integer (n : Int)
  | float (x : Float)
  | text (s : String)
  | sequence
  | map

/-- How the message names what was found. -/
def Found.describe : Found → String
  | null => "null"
  | flag b => s!"boolean `{b}`"
  | integer n => s!"integer `{n}`"
  | float x => s!"floating point `{FloatText.shortest x}`"
  | text s => s!"string {Text.quoted s}"
  | sequence => "sequence"
  | map => "map"

/-- A well-formed text that does not fit its schema. -/
inductive Mismatch where
  | wrongKind (found : Found) (wanted : String)
  | outOfRange (n : Int) (wanted : String)
  | unknownMember (name : String) (known : List String)
  | repeatedMember (name : String)
  | missingMember (name : String)
  | unknownVariant (name : String) (known : List String)
  | tooShort (length : Nat) (shape : String) (size : Nat)

namespace Mismatch

/-- The names that would have been right, as the message lists them. -/
def choices : List String → String
  | [a] => s!"`{a}`"
  | [a, b] => s!"`{a}` or `{b}`"
  | names => "one of " ++ String.intercalate ", " (names.map fun a => s!"`{a}`")

/-- The wording of a mismatch. -/
def message : Mismatch → String
  | wrongKind found wanted => s!"invalid type: {found.describe}, expected {wanted}"
  | outOfRange n wanted => s!"invalid value: integer `{n}`, expected {wanted}"
  | unknownMember name known => s!"unknown field `{name}`, expected {choices known}"
  | repeatedMember name => s!"duplicate field `{name}`"
  | missingMember name => s!"missing field `{name}`"
  | unknownVariant name known => s!"unknown variant `{name}`, expected {choices known}"
  | tooShort length shape size =>
    s!"invalid length {length}, expected struct {shape} with {size} elements"

end Mismatch

/-- Why a text was refused. -/
inductive Fault where
  | malformed
  | truncated
  | mismatch (m : Mismatch)

/-- The wording of a fault.  The place in the text is not part of it. -/
def Fault.message : Fault → String
  | malformed => "the text is not JSON"
  | truncated => "the text ends too early"
  | mismatch m => m.message

end AbiCompat
