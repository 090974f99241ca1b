/-
# The program

The commands on the real files, with the reader of flat settings.  What happens to errors of the
system is that they become errors of files with the text of the system.  Nothing is proved about
this module: it has no choice to make.
-/
import AbiCompat.Cli.Commands

namespace AbiCompat

/-- The error of the system as an error of files. -/
def FileError.ofSystem (e : IO.Error) : FileError := .other (toString e)

/-- Runs an action of the system. -/
def attempt {α : Type} (action : IO α) : IO (Except FileError α) := do
  try
    return .ok (← action)
  catch e => return .error (.ofSystem e)

/-- The actions on the real files. -/
def realFiles : Files IO where
  read path := attempt do return (← IO.FS.readBinFile path).data.toList
  createDirs path := attempt (IO.FS.createDirAll path)
  write path bytes := attempt (IO.FS.writeBinFile path ⟨bytes.toArray⟩)

end AbiCompat

open AbiCompat in
/-- Runs the command line and ends with its exit code. -/
def main (args : List String) : IO UInt32 := do
  let reply ← Cli.run realFiles args Config.parse?
  IO.print reply.out
  IO.eprint reply.err
  return reply.code
