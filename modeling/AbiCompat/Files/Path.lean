/-
# Names of files

A path is cut at its slashes.  Empty parts and single dots say nothing, except for a slash or a dot
at the very front.

Two things are asked of paths: which directory a file is to be in, so that it can be made, and
after which file a library without a name is called.  Links are not followed, as there are none.
-/
import AbiCompat.Text.Split

namespace AbiCompat.Path

/-- The parts between the slashes. -/
def parts (path : String) : List String :=
  (Text.splitAt '/' path.toList).map String.ofList

/-- Whether a part that is not the first one says nothing. -/
def isIdle (part : String) : Bool := part == "" || part == "."

/-- The path of these parts; a single empty part is the root. -/
def join (ps : List String) : String := if ps = [""] then "/" else String.intercalate "/" ps

/-- The parts up to the last one that says something. -/
def trimEnd : List String → List String
  | [] => []
  | first :: rest =>
    match (rest.reverse.dropWhile isIdle).reverse with
    | [] => [first]
    | rest => first :: rest

/-- The path of the directory that the path is in; nothing for the root and for no path. -/
def parent? (path : String) : Option String :=
  match trimEnd (parts path) with
  | [] => none
  | [first] => if first = "" then none else some ""
  | first :: second :: rest => some (join (trimEnd (first :: (second :: rest).dropLast)))

/-- The name of the file; nothing if the path ends in the root, a dot or two dots. -/
def fileName? (path : String) : Option String :=
  match (trimEnd (parts path)).getLast? with
  | none => none
  | some last => if isIdle last || last == ".." then none else some last

/-- A name without what follows its last dot; a dot at its front does not count. -/
def stem (name : String) : String :=
  match (name.toList.reverse.dropWhile (· != '.')).reverse with
  | [] => name
  | ['.'] => name
  | cs => String.ofList cs.dropLast

/-- The name of the library whose dump has this path. -/
def libName (path : String) : String :=
  match fileName? path with
  | some name => stem name
  | none => "unnamed-library"

end AbiCompat.Path
