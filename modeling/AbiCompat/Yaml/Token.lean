/-
# Tokens

Indentation opens and closes block forms, and a colon shows only afterwards that what stands before
it on its line is a name.  Tokens make both explicit.

There are no tokens for directives, anchors, aliases, tags and block scalars: a text in which one
of their marks stands where it would begin is refused.
-/
import AbiCompat.Yaml.Basic
import AbiCompat.Yaml.Fold

namespace AbiCompat.Yaml

/-- What a text is made of. -/
inductive Token where
  | documentStart
  | documentEnd
  | blockList
  | blockMapping
  | blockEnd
  | flowList
  | flowListEnd
  | flowMapping
  | flowMappingEnd
  | separator
  /-- The mark before an item of a block list. -/
  | item
  /-- The mark before a name. -/
  | key
  /-- The mark before what a name stands for. -/
  | value
  | scalar (s : Scalar)
deriving DecidableEq

/-- A place where a name may begin. -/
structure NameStart where
  /-- The number of tokens before it. -/
  index : Nat
  line : Nat
  column : Nat
  /-- Whether nothing but a name may begin here. -/
  isRequired : Bool

/-- A name lies on the line of its colon and is not longer than this. -/
def maxNameLength : Nat := 1024

/-- How far the reading of tokens has come. -/
structure Scan where
  rest : List Glyph
  /-- The columns of the block forms that are open, the innermost first. -/
  indents : List Nat
  /-- Where a name may have begun in the innermost form. -/
  start : Option NameStart
  /-- The same for the forms around the flow forms that are open. -/
  outer : List (Option NameStart)
  /-- Whether a name may begin here. -/
  allowsName : Bool
  tokens : Array Token

namespace Scan

/-- Before the first token. -/
def initial (gs : List Glyph) : Scan := ⟨gs, [], none, [], true, #[]⟩

/-- Whether a flow form is open. -/
def inFlow (s : Scan) : Bool := !s.outer.isEmpty

/-- The scan with one more token. -/
def push (s : Scan) (t : Token) : Scan := { s with tokens := s.tokens.push t }

/-- The scan with a token at an earlier place. -/
def insert (s : Scan) (index : Nat) (t : Token) : Scan :=
  { s with tokens := s.tokens.insertIdxIfInBounds index t }

/-! ## Blanks and comments -/

/-- Drops blanks, line breaks and comments, and tells whether a name may begin after them.
A tabulator does not indent a line on which a name may begin. -/
def dropIdle (inFlow inComment allowsName : Bool) : List Glyph → Bool × List Glyph
  | [] => (allowsName, [])
  | g :: rest =>
    if isBreak g.char then dropIdle inFlow false (allowsName || !inFlow) rest
    else if inComment then dropIdle inFlow true allowsName rest
    else if g.char == '#' then dropIdle inFlow true allowsName rest
    else if g.char == ' ' || (g.char == '\t' && (inFlow || !allowsName))
        || (g.char == '\ufeff' && g.column == 0) then
      dropIdle inFlow false allowsName rest
    else (allowsName, g :: rest)

/-- The scan at the next character that says something. -/
def toNext (s : Scan) : Scan :=
  let (allowsName, rest) := dropIdle s.inFlow false s.allowsName s.rest
  { s with allowsName, rest }

/-! ## Names -/

/-- Gives up that a name may have begun; nothing if one had to. -/
def forget (s : Scan) : Option Scan :=
  if s.start.any (·.isRequired) then none else some { s with start := none }

/-- Gives up a beginning that lies too far behind a character. -/
def forgetBefore (s : Scan) (g : Glyph) : Option Scan :=
  if s.start.any fun n => n.line < g.line || n.column + maxNameLength < g.column then s.forget
  else some s

/-- Notes that a name may begin at a character. -/
def offer (s : Scan) (g : Glyph) : Option Scan :=
  if s.allowsName then do
    let s ← s.forget
    let isRequired := !s.inFlow && s.indents.head? == some g.column
    return { s with start := some ⟨s.tokens.size, g.line, g.column, isRequired⟩ }
  else some s

/-! ## Block forms -/

/-- Closes the block forms in columns after this one. -/
def closeAfter (s : Scan) (column : Nat) : Scan :=
  if s.inFlow then s
  else
    let closed := s.indents.takeWhile (column < ·)
    { s with
      indents := s.indents.dropWhile (column < ·)
      tokens := s.tokens ++ closed.map fun _ => Token.blockEnd }

/-- Closes all block forms. -/
def closeAll (s : Scan) : Scan :=
  if s.inFlow then s
  else { s with indents := [], tokens := s.tokens ++ s.indents.map fun _ => Token.blockEnd }

/-- Opens a block form in a column after that of the innermost one. -/
def openAt (s : Scan) (column index : Nat) (t : Token) : Scan :=
  if !s.inFlow && s.indents.head?.all (· < column) then
    { s.insert index t with indents := column :: s.indents }
  else s

/-- Opens a block form for a mark at a character, where a name may begin. -/
def openFor (s : Scan) (g : Glyph) (t : Token) : Option Scan :=
  if s.inFlow then some s
  else if s.allowsName then some (s.openAt g.column s.tokens.size t)
  else none

/-! ## One token -/

/-- A line that starts or ends a document. -/
def takeBoundary (s : Scan) (t : Token) : Option Scan := do
  let s ← s.closeAll.forget
  return { s with allowsName := false, rest := s.rest.drop 3 }.push t

/-- The opening mark of a flow form. -/
def takeOpening (s : Scan) (g : Glyph) (t : Token) : Option Scan := do
  let s ← s.offer g
  return { s with
    start := none, outer := s.start :: s.outer, allowsName := true, rest := s.rest.tail }.push t

/-- The closing mark of a flow form. -/
def takeClosing (s : Scan) (t : Token) : Option Scan := do
  let s ← s.forget
  match s.outer with
  | [] => none
  | start :: outer =>
    return { s with start, outer, allowsName := false, rest := s.rest.tail }.push t

/-- The comma between members of a flow form. -/
def takeSeparator (s : Scan) : Option Scan := do
  let s ← s.forget
  return { s with allowsName := true, rest := s.rest.tail }.push .separator

/-- The mark before an item. -/
def takeItem (s : Scan) (g : Glyph) : Option Scan := do
  let s ← (← s.openFor g .blockList).forget
  return { s with allowsName := true, rest := s.rest.tail }.push .item

/-- The mark before a name. -/
def takeKey (s : Scan) (g : Glyph) : Option Scan := do
  let s ← (← s.openFor g .blockMapping).forget
  return { s with allowsName := !s.inFlow, rest := s.rest.tail }.push .key

/-- The mark before what a name stands for.  If a name may have begun, it did. -/
def takeValue (s : Scan) (g : Glyph) : Option Scan := do
  let s ←
    match s.start with
    | some n =>
      let s := (s.insert n.index .key).openAt n.column n.index .blockMapping
      pure { s with start := none, allowsName := false }
    | none =>
      let s ← s.openFor g .blockMapping
      pure { s with allowsName := !s.inFlow }
  return { s with rest := s.rest.tail }.push .value

/-- A scalar in quotes. -/
def takeQuoted (s : Scan) (g : Glyph)
    (words : List Glyph → Option (List Char × List Glyph)) : Option Scan := do
  let s ← s.offer g
  let (text, rest) ← words s.rest.tail
  return { s with allowsName := false, rest }.push (.scalar (.quoted (String.ofList text)))

/-- A plain scalar.  A name may begin after it if its line has ended. -/
def takePlain (s : Scan) (g : Glyph) : Option Scan := do
  let s ← s.offer g
  let margin := s.indents.head?.elim 0 (· + 1)
  let (text, lineEnded, rest) ← plainWords ⟨s.inFlow, margin⟩ .none s.rest
  return { s with allowsName := lineEnded, rest }.push (.scalar (.plain (String.ofList text)))

/-- The token at a character. -/
def take (s : Scan) (g : Glyph) : Option Scan :=
  let endsWord := Glyph.endsWord s.rest.tail
  if Glyph.isTriple '-' s.rest then s.takeBoundary .documentStart
  else if Glyph.isTriple '.' s.rest then s.takeBoundary .documentEnd
  else
    match g.char with
    | '[' => s.takeOpening g .flowList
    | '\x7b' => s.takeOpening g .flowMapping
    | ']' => s.takeClosing .flowListEnd
    | '\x7d' => s.takeClosing .flowMappingEnd
    | ',' => s.takeSeparator
    | '-' => if endsWord then s.takeItem g else s.takePlain g
    | '?' => if s.inFlow || endsWord then s.takeKey g else s.takePlain g
    | ':' => if s.inFlow || endsWord then s.takeValue g else s.takePlain g
    | '\'' => s.takeQuoted g (singleQuoted .none)
    | '"' => s.takeQuoted g fun gs => doubleQuoted .none gs gs
    | c => if isIndicator c || isSpacing c then none else s.takePlain g

/-! ## All tokens -/

/-- The tokens at the end of the text. -/
def finish (s : Scan) : Option (List Token) :=
  if s.inFlow then none else s.forget.map fun s => s.closeAll.tokens.toList

/-- The tokens up to the end of the text.  Every token takes a character, so that the text
at the start bounds their number. -/
def run : List Glyph → Scan → Option (List Token)
  | bound, s =>
    let s := s.toNext
    match s.rest, bound with
    | [], _ => s.finish
    | _, [] => none
    | g :: _, _ :: bound => do run bound (← ((← s.forgetBefore g).closeAfter g.column).take g)

end Scan

def tokens? (text : String) : Option (List Token) :=
  if text.toList.all isAllowed then
    let gs := Glyph.ofText text
    Scan.run gs (.initial gs)
  else none

end AbiCompat.Yaml
