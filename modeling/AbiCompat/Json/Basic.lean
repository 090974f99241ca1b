/-
# JSON values

A value keeps the members of an object in the order of the text, and all members that share a
name.  Who looks up a member gets the last one.

Numbers are kept by the kind of their literals: integers that fit in 64 bits, with or without a
sign, and doubles for all others.
-/

namespace AbiCompat

/-- A number as its literal gives it: an integer that fits in 64 bits, or a double. -/
inductive JsonNumber where
  | natural (n : UInt64)
  | negative (n : Int64)
  | float (x : Float)

/-- A JSON value; the members of an object are in the order of the text. -/
inductive Json where
  | null
  | bool (b : Bool)
  | number (n : JsonNumber)
  | string (s : String)
  | array (items : List Json)
  | object (members : List (String × Json))

namespace Json

instance : Inhabited Json := ⟨null⟩

/-- The number for a signed integer. -/
def ofInt64 (n : Int64) : Json :=
  if 0 ≤ n then .number (.natural n.toUInt64) else .number (.negative n)

/-- The number for an unsigned integer. -/
def ofUInt64 (n : UInt64) : Json := .number (.natural n)

/-- The number for a count. -/
def ofNat (n : Nat) : Json := ofUInt64 (UInt64.ofNat n)

/-- The value of the last member with a name. -/
def member? (j : Json) (name : String) : Option Json :=
  match j with
  | object members => (members.reverse.find? (fun m => m.1 == name)).map (·.2)
  | _ => none

/-- Puts a member in the order of the names, in place of one with the same name. -/
def putMember (name : String) (value : Json) : List (String × Json) → List (String × Json)
  | [] => [(name, value)]
  | (n, v) :: rest =>
    if name < n then (name, value) :: (n, v) :: rest
    else if n < name then (n, v) :: putMember name value rest
    else (name, value) :: rest

mutual

/-- The value with the members of every object in the order of their names; of
several members with one name the last is kept. -/
def sortMembers : Json → Json
  | null => null
  | bool b => bool b
  | number n => number n
  | string s => string s
  | array items => array (sortItems items)
  | object members => object (sortInto [] members)

/-- `sortMembers` for each item. -/
def sortItems : List Json → List Json
  | [] => []
  | j :: js => sortMembers j :: sortItems js

/-- Enters the members one by one into sorted ones. -/
def sortInto (done : List (String × Json)) : List (String × Json) → List (String × Json)
  | [] => done
  | (name, value) :: rest => sortInto (putMember name (sortMembers value) done) rest

end

end Json

end AbiCompat
