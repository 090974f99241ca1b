/-
# The characters of a text and where they stand

Indentation carries meaning, so that every character is taken together with its line and its
column.  A line ends with a line feed, a carriage return, both, or a next-line character, which are
all read as a line feed, or with one of the two separators of lines and paragraphs, which are kept.

Characters that no YAML text may have are refused here, before anything else is looked at.
-/

namespace AbiCompat.Yaml

/-- Whether a text may hold the character. -/
def isAllowed (c : Char) : Bool :=
  let n := c.toNat
  n == 0x09 || n == 0x0a || n == 0x0d || (0x20 ≤ n && n ≤ 0x7e) || n == 0x85
    || (0xa0 ≤ n && n ≤ 0xfffd) || 0x10000 ≤ n

/-- A space or a tabulator. -/
def isBlank (c : Char) : Bool := c == ' ' || c == '\t'

/-- A character that ends a line. -/
def isBreak (c : Char) : Bool := c == '\n' || c == '\u2028' || c == '\u2029'

/-- A character between words. -/
def isSpacing (c : Char) : Bool := isBlank c || isBreak c

/-- A character that structures flow forms. -/
def isFlowMark (c : Char) : Bool := c == ',' || c == '[' || c == ']' || c == '\x7b' || c == '\x7d'

/-- The text with a line feed for each line break that is not a separator. -/
def unifyBreaks : List Char → List Char
  | [] => []
  | '\r' :: '\n' :: cs => '\n' :: unifyBreaks cs
  | '\r' :: cs => '\n' :: unifyBreaks cs
  | '\u0085' :: cs => '\n' :: unifyBreaks cs
  | c :: cs => c :: unifyBreaks cs

/-- A character and where it stands. -/
structure Glyph where
  char : Char
  line : Nat
  column : Nat
deriving DecidableEq

namespace Glyph

/-- The characters of a text that begins at a place. -/
def placed (line column : Nat) : List Char → List Glyph
  | [] => []
  | c :: cs =>
    ⟨c, line, column⟩ ::
      if isBreak c then placed (line + 1) 0 cs else placed line (column + 1) cs

/-- The characters of a text. -/
def ofText (text : String) : List Glyph := placed 0 0 (unifyBreaks text.toList)

/-- Whether a mark is followed by the end of a word. -/
def endsWord : List Glyph → Bool
  | [] => true
  | g :: _ => isSpacing g.char

/-- Whether three of a character stand alone at the start of a line. -/
def isTriple (c : Char) : List Glyph → Bool
  | g :: h :: i :: rest =>
    g.column == 0 && g.char == c && h.char == c && i.char == c && endsWord rest
  | _ => false

/-- Whether a document starts or ends here. -/
def isBoundary (gs : List Glyph) : Bool := isTriple '-' gs || isTriple '.' gs

end Glyph

end AbiCompat.Yaml
