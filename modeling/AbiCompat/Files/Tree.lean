/-
# A tree of files in memory

A place is a list of names from the working directory.  A path is followed name by name: everything
before its end has to be a directory.  Paths may lead out of the working directory, to the
directories above it and to the root, of which nothing else is known.

A tree stands for the real files where theorems are about what a run changes.  It has directories
and files with their bytes, and no links, rights, times or limits on space; a write goes through as
a whole, or fails as a whole.
-/
import AbiCompat.Files.Basic
import AbiCompat.Files.Path

namespace AbiCompat

/-- A place in the tree.  Two dots at the front stand for the directory above, and a slash
stands for the root. -/
abbrev Place := List String

namespace Place

/-- The root of all files. -/
def root : Place := ["/"]

/-- Whether a place is the working directory or one above it. -/
def isAncestor (p : Place) : Bool := p.all (· == "..")

/-- Whether a place is in the working directory. -/
def isWithin (p : Place) : Bool := p.head?.all fun name => name != ".." && name != "/"

/-- The place above. -/
def parent (p : Place) : Place :=
  if p.isAncestor then p ++ [".."] else if p = root then root else p.dropLast

end Place

/-- The files with their bytes, and the directories in the working directory. -/
structure FileTree where
  files : List (Place × Bytes)
  dirs : List Place
deriving DecidableEq

namespace FileTree

/-- The empty working directory. -/
def empty : FileTree := ⟨[], []⟩

def fileAt? (t : FileTree) (p : Place) : Option Bytes := t.files.lookup p

/-- Whether a place is a directory. -/
def hasDir (t : FileTree) (p : Place) : Bool :=
  p.isAncestor || p == Place.root || t.dirs.contains p

/-! ## Following paths -/

/-- A name has at most this many bytes. -/
def maxNameSize : Nat := 255

/-- A path has at most this many bytes. -/
def maxPathSize : Nat := 4095

/-- Whether a name has too many bytes. -/
def isTooLong (name : String) : Bool := maxNameSize < name.utf8ByteSize

/-- What a path leads to. -/
inductive Spot where
  /-- A directory that is there. -/
  | directory (p : Place)
  /-- A name in a directory that is there; slashes may follow it. -/
  | entry (parent : Place) (name : String) (isSlashed : Bool)

/-- Follows names from a directory, up to the last one that is no dots. -/
def follow (t : FileTree) (start : Place) : List String → Except FileError Spot
  | [] => .ok (.directory start)
  | name :: rest =>
    if Path.isIdle name then follow t start rest
    else if name = ".." then follow t start.parent rest
    else if rest.all (· == "") then .ok (.entry start name (!rest.isEmpty))
    else if isTooLong name then .error .nameTooLong
    else
      let p := start ++ [name]
      if t.hasDir p then follow t p rest
      else if (t.fileAt? p).isSome then .error .notDirectory
      else .error .notFound

/-- What a path leads to. -/
def spot (t : FileTree) (path : String) : Except FileError Spot :=
  if path.toList.contains '\x00' then .error .zeroInName
  else if maxPathSize < path.utf8ByteSize then .error .nameTooLong
  else
    match Path.parts path with
    | [""] => .error .notFound
    | "" :: rest => t.follow Place.root rest
    | names => t.follow [] names

/-! ## Reading and writing -/

def put (t : FileTree) (p : Place) (bytes : Bytes) : FileTree :=
  if (t.fileAt? p).isSome then
    { t with files := t.files.map fun f => if f.1 = p then (p, bytes) else f }
  else { t with files := t.files ++ [(p, bytes)] }

/-- The bytes of the file that a path leads to. -/
def read (t : FileTree) (path : String) : Except FileError Bytes := do
  match ← t.spot path with
  | .directory _ => .error .isDirectory
  | .entry parent name isSlashed =>
    let p := parent ++ [name]
    if isTooLong name then .error .nameTooLong
    else if t.hasDir p then .error .isDirectory
    else
      match t.fileAt? p with
      | some bytes => if isSlashed then .error .notDirectory else .ok bytes
      | none => .error .notFound

/-- Writes the file that a path leads to.  A slash at the end asks for a directory. -/
def write (t : FileTree) (path : String) (bytes : Bytes) : Except FileError FileTree := do
  match ← t.spot path with
  | .directory _ => .error .isDirectory
  | .entry parent name isSlashed =>
    let p := parent ++ [name]
    if isSlashed then .error .isDirectory
    else if isTooLong name then .error .nameTooLong
    else if t.hasDir p then .error .isDirectory
    else .ok (t.put p bytes)

/-! ## Making directories -/

/-- Makes one directory. -/
def createDir (t : FileTree) (path : String) : Except FileError FileTree := do
  match ← t.spot path with
  | .directory _ => .error .isFile
  | .entry parent name _ =>
    let p := parent ++ [name]
    if isTooLong name then .error .nameTooLong
    else if t.hasDir p || (t.fileAt? p).isSome then .error .isFile
    else .ok { t with dirs := t.dirs ++ [p] }

/-- Whether a path leads to a directory. -/
def isDirectory (t : FileTree) (path : String) : Bool :=
  match t.spot path with
  | .ok (.directory _) => true
  | .ok (.entry parent name _) => t.hasDir (parent ++ [name])
  | .error _ => false

/-- Makes a directory; one that is there already is as good. -/
def ensureDir (t : FileTree) (path : String) : Except FileError FileTree :=
  match t.createDir path with
  | .ok t' => .ok t'
  | .error e => if t.isDirectory path then .ok t else .error e

/-- Makes a directory and those it is in.  What was made stays when a later step fails;
the fuel bounds the number of directories. -/
def createDirs : Nat → FileTree → String → Except FileError Unit × FileTree
  | 0, t, _ => (.error .notFound, t)
  | fuel + 1, t, path =>
    if path = "" then (.ok (), t)
    else
      match t.ensureDir path with
      | .ok t' => (.ok (), t')
      | .error .notFound =>
        match Path.parent? path with
        | none => (.error .notFound, t)
        | some above =>
          match createDirs fuel t above with
          | (.error e, t') => (.error e, t')
          | (.ok (), t') =>
            match t'.ensureDir path with
            | .ok t'' => (.ok (), t'')
            | .error e => (.error e, t')
      | .error e => (.error e, t)

/-! ## The tree as files -/

def actions : Files (StateM FileTree) where
  read path := fun t => (t.read path, t)
  createDirs path := fun t => createDirs (path.length + 1) t path
  write path bytes := fun t =>
    match t.write path bytes with
    | .ok t' => (.ok (), t')
    | .error e => (.error e, t)

/-- Adds a directory and those it is in. -/
def addDir (t : FileTree) (p : Place) : FileTree :=
  let above := (List.range p.length).map fun n => p.take (n + 1)
  { t with dirs := t.dirs ++ above.filter (fun q => !t.dirs.contains q) }

/-- Adds a file and the directories it is in. -/
def addFile (t : FileTree) (p : Place) (bytes : Bytes) : FileTree :=
  (t.addDir p.dropLast).put p bytes

end FileTree

end AbiCompat
