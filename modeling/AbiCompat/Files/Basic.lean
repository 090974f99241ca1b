/-
# Access to files

What the program needs of files, as a record of three actions, so that one program runs on the real
files and on a tree of files in memory.

An action either goes through or gives an error.  For trees of files that means all or nothing: a
write that fails has changed nothing.  Real files do not promise that, since a disk may be full in
the middle of a write.
-/
import AbiCompat.Text.Bytes

namespace AbiCompat

/-- Why a file could not be read or written. -/
inductive FileError where
  | notFound
  | isFile
  | notDirectory
  | isDirectory
  | nameTooLong
  | zeroInName
  | other (text : String)
deriving DecidableEq

/-- The wording of a file error. -/
def FileError.message : FileError → String
  | notFound => "No such file or directory (os error 2)"
  | isFile => "File exists (os error 17)"
  | notDirectory => "Not a directory (os error 20)"
  | isDirectory => "Is a directory (os error 21)"
  | nameTooLong => "File name too long (os error 36)"
  | zeroInName => "file name contained an unexpected NUL byte"
  | other text => text

/-- The actions on files. -/
structure Files (m : Type → Type) where
  /-- The bytes of a file. -/
  read : String → m (Except FileError Bytes)
  /-- Makes a directory and those it is in. -/
  createDirs : String → m (Except FileError Unit)
  /-- Replaces the bytes of a file, or makes it. -/
  write : String → Bytes → m (Except FileError Unit)

end AbiCompat
