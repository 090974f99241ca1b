/-
# Mappings of tokens

A text holds at most one document, and that is a mapping in block or in flow form.  Forms within
forms are refused, but for lists of scalars.

A name without anything after its colon stands for the plain scalar with no text.
-/
import AbiCompat.Yaml.Token

namespace AbiCompat.Yaml

/-- Puts a part before those that were read after it. -/
def before {α : Type} (a : α) (r : List α × List Token) : List α × List Token := (a :: r.1, r.2)

/-! ## Lists -/

/-- The items of a block list up to its end. -/
def blockItems : List Token → Option (List Scalar × List Token)
  | .item :: .scalar s :: rest => (blockItems rest).map (before s)
  | .item :: .item :: rest => (blockItems (.item :: rest)).map (before .empty)
  | .item :: .blockEnd :: rest => some ([.empty], rest)
  | .blockEnd :: rest => some ([], rest)
  | _ => none

/-- The items of a list that is not indented more than its name. -/
def bareItems : List Token → Option (List Scalar × List Token)
  | .item :: .scalar s :: rest => (bareItems rest).map (before s)
  | .item :: .item :: rest => (bareItems (.item :: rest)).map (before .empty)
  | .item :: .key :: rest => some ([.empty], .key :: rest)
  | .item :: .value :: rest => some ([.empty], .value :: rest)
  | .item :: .blockEnd :: rest => some ([.empty], .blockEnd :: rest)
  | .item :: _ => none
  | rest => some ([], rest)

/-- The items of a flow list up to its end. -/
def flowItems : List Token → Option (List Scalar × List Token)
  | .scalar s :: .separator :: rest => (flowItems rest).map (before s)
  | .scalar s :: .flowListEnd :: rest => some ([s], rest)
  | .flowListEnd :: rest => some ([], rest)
  | _ => none

/-! ## Members -/

/-- What a name in a block mapping stands for, after its mark. -/
def blockNode (ts : List Token) : Option (Node × List Token) :=
  match ts with
  | .scalar s :: rest => some (.scalar s, rest)
  | .blockList :: rest => (blockItems rest).map fun r => (.list r.1, r.2)
  | .flowList :: rest => (flowItems rest).map fun r => (.list r.1, r.2)
  | .item :: _ => (bareItems ts).map fun r => (.list r.1, r.2)
  | .key :: _ | .value :: _ | .blockEnd :: _ => some (.scalar .empty, ts)
  | _ => none

/-- What a name in a flow mapping stands for, after its mark. -/
def flowNode (ts : List Token) : Option (Node × List Token) :=
  match ts with
  | .scalar s :: rest => some (.scalar s, rest)
  | .flowList :: rest => (flowItems rest).map fun r => (.list r.1, r.2)
  | .separator :: _ | .flowMappingEnd :: _ => some (.scalar .empty, ts)
  | _ => none

/-- A name and what stands for it, after the mark before the name.  Either may be left out. -/
def member (node : List Token → Option (Node × List Token)) (ts : List Token) :
    Option ((String × Node) × List Token) :=
  let (name, ts) : Scalar × List Token :=
    match ts with
    | .scalar s :: rest => (s, rest)
    | _ => (.empty, ts)
  match ts with
  | .value :: rest => (node rest).map fun r => ((name.text, r.1), r.2)
  | _ => some ((name.text, .scalar .empty), ts)

/-- The members of a block mapping up to its end.  The tokens at the start bound their
number. -/
def blockMembers : List Token → List Token → Option (Mapping × List Token)
  | _, .blockEnd :: rest => some ([], rest)
  | _ :: bound, .key :: rest => do
    let (m, rest) ← member blockNode rest
    return before m (← blockMembers bound rest)
  | _, _ => none

/-- A member of a flow mapping.  A name without a mark stands for nothing. -/
def flowMember (ts : List Token) : Option ((String × Node) × List Token) :=
  match ts with
  | .key :: rest => member flowNode rest
  | .scalar s :: rest => some ((s.text, .scalar .empty), rest)
  | _ => none

/-- The members of a flow mapping up to its end.  The tokens at the start bound their
number. -/
def flowMembers : List Token → List Token → Option (Mapping × List Token)
  | _, .flowMappingEnd :: rest => some ([], rest)
  | _ :: bound, ts => do
    match ← flowMember ts with
    | (m, .separator :: rest) => return before m (← flowMembers bound rest)
    | (m, .flowMappingEnd :: rest) => return ([m], rest)
    | _ => none
  | _, _ => none

/-! ## Documents -/

/-- The mapping that is a document, with the tokens after it. -/
def root : List Token → Option (Mapping × List Token)
  | .blockMapping :: rest => blockMembers rest rest
  | .flowMapping :: rest => flowMembers rest rest
  | _ => none

/-- The mapping of the only document.  A document with nothing in it is the empty mapping. -/
def document? : List Token → Option Mapping
  | [] => some []
  | ts => do
    let (m, rest) ←
      match ts with
      | [.documentStart] => some ([], [])
      | .documentStart :: .documentEnd :: rest => some ([], rest)
      | .documentStart :: rest => root rest
      | ts => root ts
    if rest.all (· == .documentEnd) then some m else none

def parse? (text : String) : Option Mapping := (tokens? text).bind document?

end AbiCompat.Yaml
