/-
# Scalars over several lines

Blanks within a line belong to a scalar.  Where a line ends, the blanks around the break are
dropped: a single line feed becomes a space, and of several the first is dropped.  A separator
stays as it is.

Plain scalars and both kinds of quoted ones are folded in this way; only scalars between double
quotes have escapes.  Block scalars are not read.
-/
import AbiCompat.Yaml.Glyph

namespace AbiCompat.Yaml

/-- What has been read since the last word of a scalar, the last character first. -/
inductive Gap where
  /-- Blanks within a line. -/
  | blanks (back : List Char)
  /-- The break that ended the line, and those after it. -/
  | breaks (first : Char) (back : List Char)
  /-- A break behind a backslash, and those after it. -/
  | escaped (back : List Char)
deriving DecidableEq

namespace Gap

/-- Nothing between two characters of a word. -/
def none : Gap := .blanks []

/-- Whether nothing has been read. -/
def isEmpty (gap : Gap) : Bool := gap == none

/-- Whether a line has ended. -/
def isBroken : Gap → Bool
  | blanks _ => false
  | breaks _ _ | escaped _ => true

/-- The gap with one more character. -/
def add (gap : Gap) (c : Char) : Gap :=
  match gap with
  | blanks back => if isBreak c then .breaks c [] else .blanks (c :: back)
  | breaks first back => if isBreak c then .breaks first (c :: back) else gap
  | escaped back => if isBreak c then .escaped (c :: back) else gap

/-- What the gap is in the text of the scalar. -/
def text : Gap → List Char
  | blanks back => back.reverse
  | breaks '\n' [] => [' ']
  | breaks '\n' back => back.reverse
  | breaks first back => first :: back.reverse
  | escaped back => back.reverse

end Gap

/-! ## Quoted scalars -/

/-- The rest of a scalar in single quotes, in which a quote is written twice. -/
def singleQuoted (gap : Gap) : List Glyph → Option (List Char × List Glyph)
  | [] => none
  | g :: rest =>
    if isSpacing g.char then singleQuoted (gap.add g.char) rest
    else if Glyph.isBoundary (g :: rest) then none
    else if g.char == '\'' then
      match rest with
      | [] => some (gap.text, [])
      | h :: rest' =>
        if h.char == '\'' then
          (singleQuoted .none rest').map fun r => (gap.text ++ '\'' :: r.1, r.2)
        else some (gap.text, h :: rest')
    else (singleQuoted .none rest).map fun r => (gap.text ++ g.char :: r.1, r.2)

/-- The value of hexadecimal digits. -/
def hexValue? (cs : List Char) : Option Nat :=
  cs.foldl (fun n c => do
    let n ← n
    let d ←
      if '0' ≤ c ∧ c ≤ '9' then some (c.toNat - '0'.toNat)
      else if 'a' ≤ c ∧ c ≤ 'f' then some (c.toNat - 'a'.toNat + 10)
      else if 'A' ≤ c ∧ c ≤ 'F' then some (c.toNat - 'A'.toNat + 10)
      else none
    return n * 16 + d) (some 0)

/-- The character with a number of so many hexadecimal digits. -/
def codePoint? (count : Nat) (gs : List Glyph) : Option (Char × List Glyph) := do
  let digits := (gs.take count).map Glyph.char
  let n ← hexValue? digits
  if digits.length = count ∧ n.isValidChar then return (Char.ofNat n, gs.drop count) else none

/-- What stands for what after a backslash. -/
def shortEscapes : List (Char × Char) :=
  [('0', '\x00'), ('a', '\x07'), ('b', '\x08'), ('t', '\t'), ('\t', '\t'), ('n', '\n'),
    ('v', '\x0b'), ('f', '\x0c'), ('r', '\r'), ('e', '\x1b'), (' ', ' '), ('"', '"'),
    ('/', '/'), ('\\', '\\'), ('N', '\u0085'), ('_', '\u00a0'), ('L', '\u2028'),
    ('P', '\u2029')]

/-- What an escape stands for, after its backslash. -/
def escape? : List Glyph → Option (Char × List Glyph)
  | [] => none
  | g :: rest =>
    if g.char == 'x' then codePoint? 2 rest
    else if g.char == 'u' then codePoint? 4 rest
    else if g.char == 'U' then codePoint? 8 rest
    else (shortEscapes.lookup g.char).map fun c => (c, rest)

/-- The rest of a scalar in double quotes.  Every step takes a character, so that the text
at the start bounds their number. -/
def doubleQuoted (gap : Gap) : List Glyph → List Glyph → Option (List Char × List Glyph)
  | _, [] => none
  | [], _ => none
  | _ :: bound, g :: rest =>
    if isSpacing g.char then doubleQuoted (gap.add g.char) bound rest
    else if Glyph.isBoundary (g :: rest) then none
    else if g.char == '"' then some (gap.text, rest)
    else if g.char == '\\' then
      if rest.head?.any (isBreak ·.char) then
        (doubleQuoted (.escaped []) bound rest.tail).map fun r => (gap.text ++ r.1, r.2)
      else do
        let (c, rest) ← escape? rest
        let (text, rest) ← doubleQuoted .none bound rest
        return (gap.text ++ c :: text, rest)
    else (doubleQuoted .none bound rest).map fun r => (gap.text ++ g.char :: r.1, r.2)

/-! ## Plain scalars -/

/-- A character that no plain scalar starts with. -/
def isIndicator (c : Char) : Bool :=
  isFlowMark c || c == '#' || c == '&' || c == '*' || c == '!' || c == '|' || c == '>'
    || c == '\'' || c == '"' || c == '%' || c == '@' || c == '\x60'

/-- Where a plain scalar stands. -/
structure Surroundings where
  /-- Whether it is within a flow form. -/
  inFlow : Bool
  /-- The first column in which its further lines may begin. -/
  margin : Nat

/-- Whether a plain scalar ends before these characters. -/
def Surroundings.endsPlain (around : Surroundings) (gap : Gap) : List Glyph → Bool
  | [] => true
  | g :: rest =>
    Glyph.isBoundary (g :: rest) || (g.char == '#' && !gap.isEmpty)
      || (!around.inFlow && gap.isBroken && g.column < around.margin)
      || (g.char == ':' && Glyph.endsWord rest) || (around.inFlow && isFlowMark g.char)

/-- Whether there stands a colon that neither ends a name nor belongs to a word. -/
def isStrayColon : List Glyph → Bool
  | g :: h :: _ => g.char == ':' && (isFlowMark h.char || h.char == '?')
  | _ => false

/-- The rest of a plain scalar, and whether a line ended after its last word.  Before the
margin a further line may be indented by spaces only. -/
def plainWords (around : Surroundings) (gap : Gap) :
    List Glyph → Option (List Char × Bool × List Glyph)
  | [] => some ([], gap.isBroken, [])
  | g :: rest =>
    if isSpacing g.char then
      if g.char == '\t' && gap.isBroken && g.column < around.margin then none
      else plainWords around (gap.add g.char) rest
    else if around.endsPlain gap (g :: rest) then some ([], gap.isBroken, g :: rest)
    else if around.inFlow && isStrayColon (g :: rest) then none
    else (plainWords around .none rest).map fun r => (gap.text ++ g.char :: r.1, r.2)

end AbiCompat.Yaml
