/-
# Dumps and reports in files

A document is read or written whole.  An action that fails on the way is an error with the path of
the file; a dump that was read and is not accepted is an error of its own.
-/
import AbiCompat.Dump.Document
import AbiCompat.Files.Basic
import AbiCompat.Report.Document

namespace AbiCompat

/-- An action on a file that failed. -/
structure PathError where
  path : String
  error : FileError
deriving DecidableEq

/-- The wording of a failed action. -/
def PathError.message (e : PathError) : String := s!"I/O error on {e.path}: {e.error.message}"

namespace Files

variable {m : Type → Type} [Monad m]

/-- The bytes of a file. -/
def readBytes (files : Files m) (path : String) : ExceptT PathError m Bytes := do
  match ← files.read path with
  | .ok bs => return bs
  | .error e => throw ⟨path, e⟩

/-- Replaces the text of a file. -/
def writeText (files : Files m) (path text : String) : ExceptT PathError m Unit := do
  match ← files.write path (Bytes.ofText text) with
  | .ok () => return ()
  | .error e => throw ⟨path, e⟩

end Files

/-- Why a file gives no interface. -/
inductive Dump.PathLoadError where
  | path (e : PathError)
  | load (e : LoadError)

namespace Dump

variable {m : Type → Type} [Monad m]

/-- The wording of the error. -/
def PathLoadError.message : PathLoadError → String
  | path e => e.message
  | load e => e.message

/-- The interface that the dump in a file describes. -/
def loadPath (files : Files m) (path : String) : ExceptT PathLoadError m Interface := do
  let bs ← (files.readBytes path).adapt .path
  match load bs with
  | .ok i => return i
  | .error e => throw (.load e)

/-- Writes the dump of an interface to a file. -/
def savePath (files : Files m) (i : Interface) (path : String) : ExceptT PathError m Unit :=
  files.writeText path (save i)

end Dump

/-- Writes a report to a file. -/
def Report.writePath {m : Type → Type} [Monad m] (files : Files m) (r : Report)
    (path : String) : ExceptT PathError m Unit :=
  files.writeText path r.text

end AbiCompat
