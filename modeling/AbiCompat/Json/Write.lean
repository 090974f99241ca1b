/-
# Writing JSON values

The pretty form has one item or member a line, two spaces to the level, and nothing between the
brackets of what is empty.  The compact form has no blanks.

Both escape what has to be escaped and nothing else: quotes, backslashes and control characters,
with the short escape where there is one.  All other characters are written as they are.
-/
import AbiCompat.Json.Basic
import AbiCompat.Json.Float

namespace AbiCompat.Json

/-- One character of a string literal. -/
def escapedChar (c : Char) : List Char :=
  match c with
  | '"' => ['\\', '"']
  | '\\' => ['\\', '\\']
  | '\x08' => ['\\', 'b']
  | '\x0c' => ['\\', 'f']
  | '\n' => ['\\', 'n']
  | '\r' => ['\\', 'r']
  | '\t' => ['\\', 't']
  | _ =>
    if c.toNat < 0x20 then
      ['\\', 'u', '0', '0', Nat.digitChar (c.toNat / 16), Nat.digitChar (c.toNat % 16)]
    else [c]

/-- A string literal. -/
def quotedText (s : String) : List Char := '"' :: (s.toList.flatMap escapedChar ++ ['"'])

/-- A number literal. -/
def numberText : JsonNumber → List Char
  | .natural n => Nat.toDigits 10 n.toNat
  | .negative n => '-' :: Nat.toDigits 10 n.toInt.natAbs
  | .float x => (FloatText.shortest x).toList

/-- The literal of a truth value. -/
def flagText : Bool → List Char
  | true => ['t', 'r', 'u', 'e']
  | false => ['f', 'a', 'l', 's', 'e']

/-- A new line at a level. -/
def newline (level : Nat) : List Char := '\n' :: List.replicate (2 * level) ' '

mutual

/-- The pretty form of a value that stands at a level. -/
def prettyAt (level : Nat) : Json → List Char
  | null => ['n', 'u', 'l', 'l']
  | bool b => flagText b
  | number n => numberText n
  | string s => quotedText s
  | array [] => ['[', ']']
  | array (j :: js) =>
    '[' :: (newline (level + 1) ++ prettyAt (level + 1) j ++ prettyItems level js)
  | object [] => ['\x7b', '\x7d']
  | object ((name, j) :: ms) =>
    '\x7b' :: (newline (level + 1) ++ quotedText name ++ [':', ' '] ++ prettyAt (level + 1) j
      ++ prettyMembers level ms)

/-- The items after the first one, and the closing bracket. -/
def prettyItems (level : Nat) : List Json → List Char
  | [] => newline level ++ [']']
  | j :: js => ',' :: (newline (level + 1) ++ prettyAt (level + 1) j ++ prettyItems level js)

/-- The members after the first one, and the closing brace. -/
def prettyMembers (level : Nat) : List (String × Json) → List Char
  | [] => newline level ++ ['\x7d']
  | (name, j) :: ms =>
    ',' :: (newline (level + 1) ++ quotedText name ++ [':', ' '] ++ prettyAt (level + 1) j
      ++ prettyMembers level ms)

end

/-- The pretty form of a value as a document of its own, which ends with a line feed. -/
def prettyDocument (j : Json) : String := String.ofList (prettyAt 0 j ++ ['\n'])

mutual

/-- The compact form of a value. -/
def compactText : Json → List Char
  | null => ['n', 'u', 'l', 'l']
  | bool b => flagText b
  | number n => numberText n
  | string s => quotedText s
  | array [] => ['[', ']']
  | array (j :: js) => '[' :: (compactText j ++ compactItems js)
  | object [] => ['\x7b', '\x7d']
  | object ((name, j) :: ms) =>
    '\x7b' :: (quotedText name ++ ':' :: compactText j ++ compactMembers ms)

/-- The items after the first one, and the closing bracket. -/
def compactItems : List Json → List Char
  | [] => [']']
  | j :: js => ',' :: (compactText j ++ compactItems js)

/-- The members after the first one, and the closing brace. -/
def compactMembers : List (String × Json) → List Char
  | [] => ['\x7d']
  | (name, j) :: ms =>
    ',' :: (quotedText name ++ ':' :: compactText j ++ compactMembers ms)

end

/-- The compact form of a value. -/
def compact (j : Json) : String := String.ofList (compactText j)

end AbiCompat.Json
