/-
# Settings of a comparison

The settings file, the list of ignored keys and the options of the line together.  An option that
is set always counts; what is left out keeps what the file says.  Flags can be set by either, and
neither can take back what the other one has set.

What reads the text of a settings file is an argument (`Config.Reader`), since that is the work of
a library and the settings are made from whatever it gives.
-/
import AbiCompat.Cli.Arguments
import AbiCompat.Config.Basic
import AbiCompat.Files.Basic
import AbiCompat.Files.Path
import AbiCompat.IgnoreList

namespace AbiCompat.Cli

/-- Why a command came to nothing. -/
inductive Failure where
  | configUnreadable (path : String)
  | configInvalid (path : String)
  | ignoreListUnreadable (path : String)
  | dumpUnreadable (path : String)
  | dumpInvalid (path : String)
  | directoryNotMade (path : String)
  | reportNotWritten (path : String)
  | dumpNotWritten (path : String)
deriving DecidableEq

/-- The wording of a failure. -/
def Failure.message : Failure → String
  | configUnreadable path => s!"Failed to read diff config at {path}"
  | configInvalid path => s!"Invalid diff config {path}"
  | ignoreListUnreadable path => s!"Failed to read ignore list at {path}"
  | dumpUnreadable path => s!"Failed to read dump {path}"
  | dumpInvalid path => s!"Failed to load dump {path}"
  | directoryNotMade path => s!"Failed to create report dir: {path}"
  | reportNotWritten path => s!"Failed to write diff report {path}"
  | dumpNotWritten path => s!"Failed to write dump {path}"

/-- The settings of one comparison. -/
structure Settings where
  libName : String
  arch : String
  policy : Policy
  gate : Gate

/-- The settings of a file with the flags of the line. -/
def withFlags (c : Config) (args : CompareArgs) : Config :=
  { c with
    checkAll := c.checkAll || args.checkAll
    opaqueDiffers := c.opaqueDiffers || args.opaqueDiffers
    weakMayChange := c.weakMayChange || args.weakMayChange
    gate := c.gate.union args.gate }

/-- The settings that a file, more ignored keys and the line give.  A library without a
name is called after the new dump. -/
def Settings.of (c : Config) (ignored : KeySet) (args : CompareArgs) : Settings :=
  let c := withFlags c args
  { libName := (args.lib <|> c.libName).getD (Path.libName args.new)
    arch := (args.arch <|> c.arch).getD ""
    policy := { c.policy with ignored := c.policy.ignored.union ignored }
    gate := c.gate }

section

variable {m : Type → Type} [Monad m] (files : Files m)

/-- The text of a file.  A file that cannot be read or is no text is a failure. -/
def readText (path : String) (failure : Failure) : ExceptT Failure m String := do
  match ← files.read path with
  | .error _ => throw failure
  | .ok bs =>
    match Bytes.text? bs with
    | none => throw failure
    | some text => return text

/-- The settings in a file. -/
def readConfig (reader : Config.Reader) (path : String) : ExceptT Failure m Config := do
  let text ← readText files path (.configUnreadable path)
  match reader text with
  | none => throw (.configInvalid path)
  | some c => return c

/-- The keys of a list in a file. -/
def readIgnoreList (path : String) : ExceptT Failure m KeySet := do
  let text ← readText files path (.ignoreListUnreadable path)
  return IgnoreList.parse text

/-- The settings of a line, which may name files. -/
def resolveSettings (args : CompareArgs) (reader : Config.Reader := Config.parse?) :
    ExceptT Failure m Settings := do
  let c ← match args.config with
    | some path => readConfig files reader path
    | none => pure .initial
  let ignored ← match args.ignoreList with
    | some path => readIgnoreList files path
    | none => pure .empty
  return .of c ignored args

end

end AbiCompat.Cli
