/-
# Arguments of the command line

A line is the name of a command and its options in any order.  A value follows its option as the
next argument or after an equals sign; no option comes twice.

There is one parser for all commands: a table says which options a command has and what each of
them takes, and a request is made from the options that were found.  A line that is no good is none
at all: which of its faults is reported, and in what words, is left out, and so are the texts about
usage.
-/
import AbiCompat.Gate

namespace AbiCompat.Cli

/-- What `compare` is told. -/
structure CompareArgs where
  old : String
  new : String
  output : String
  lib : Option String
  arch : Option String
  config : Option String
  ignoreList : Option String
  checkAll : Bool
  opaqueDiffers : Bool
  weakMayChange : Bool
  gate : Gate
  json : Bool
deriving DecidableEq

/-- What a line asks for. -/
inductive Request where
  | version
  | compare (args : CompareArgs)
  | inspect (dump : String) (json : Bool)
  | formatDump (dump output : String)
deriving DecidableEq

/-! ## Options -/

/-- What an option takes. -/
inductive OptionKind where
  | flag
  | text
  /-- A path; it is not empty. -/
  | path
deriving DecidableEq

/-- The options of a command by name. -/
abbrev OptionTable := List (String × OptionKind)

/-- The options on a line: a flag without, everything else with its value. -/
abbrev Options := List (String × Option String)

namespace Options

/-- Whether a flag is set. -/
def has (o : Options) (name : String) : Bool := (o.lookup name).isSome

def value? (o : Options) (name : String) : Option String := (o.lookup name).join

/-- Adds an option, unless it is there already. -/
def add (o : Options) (name : String) (value : Option String) : Option Options :=
  if o.has name then none else some ((name, value) :: o)

end Options

/-- One argument by its form. -/
inductive Argument where
  /-- Two dashes and nothing else. -/
  | stop
  /-- Two dashes and a name, perhaps with a value. -/
  | long (name : String) (value : Option String)
  /-- One dash and letters. -/
  | short (letters : List Char)
  | word (text : String)

namespace Argument

/-- The form of an argument.  A dash alone is a word. -/
def ofText (arg : String) : Argument :=
  match arg.toList with
  | ['-', '-'] => stop
  | '-' :: '-' :: cs =>
    long (String.ofList (cs.takeWhile (· != '=')))
      (match cs.dropWhile (· != '=') with
        | [] => none
        | _ :: value => some (String.ofList value))
  | '-' :: c :: cs => short (c :: cs)
  | _ => word arg

/-- The text of an argument that can be a value. -/
def word? : Argument → Option String
  | word text => some text
  | _ => none

end Argument

/-- Whether a value will do for an option. -/
def OptionKind.takes : OptionKind → String → Bool
  | flag, _ => false
  | text, _ => true
  | path, value => value != ""

namespace OptionTable

def addValue (t : OptionTable) (name value : String) (o : Options) : Option Options := do
  let kind ← t.lookup name
  if kind.takes value then o.add name (some value) else none

/-- Reads the options of a command.  The letter `v` stands for `verbose`. -/
def read (t : OptionTable) (o : Options) : List String → Option Options
  | [] => some o
  | arg :: rest =>
    match Argument.ofText arg with
    | .stop => if rest.isEmpty then some o else none
    | .word _ => none
    | .short letters => do
      if letters = ['v'] then t.read (← o.add "verbose" none) rest else none
    | .long name (some value) => do t.read (← t.addValue name value o) rest
    | .long name none =>
      match t.lookup name with
      | none => none
      | some .flag => do t.read (← o.add name none) rest
      | some _ =>
        match rest with
        | [] => none
        | next :: rest => do
          let value ← (Argument.ofText next).word?
          t.read (← t.addValue name value o) rest

end OptionTable

/-! ## Commands -/

/-- The option that every command has. -/
def commonOptions : OptionTable := [("verbose", .flag)]

def compareOptions : OptionTable :=
  commonOptions ++
  [("old", .path), ("new", .path), ("output", .path), ("lib", .text), ("arch", .text),
    ("config", .path), ("ignore-symbols", .path), ("check-all-apis", .flag),
    ("consider-opaque-types-different", .flag), ("allow-adding-removing-weak-symbols", .flag),
    ("allow-extensions", .flag), ("allow-unreferenced-changes", .flag),
    ("allow-unreferenced-elf-symbol-changes", .flag), ("advice-only", .flag), ("json", .flag)]

def inspectOptions : OptionTable := commonOptions ++ [("dump", .path), ("json", .flag)]

def formatDumpOptions : OptionTable := commonOptions ++ [("dump", .path), ("output", .path)]

/-- What `compare` is told by its options. -/
def CompareArgs.ofOptions? (o : Options) : Option CompareArgs := do
  let old ← o.value? "old"
  let new ← o.value? "new"
  let output ← o.value? "output"
  return {
    old, new, output
    lib := o.value? "lib"
    arch := o.value? "arch"
    config := o.value? "config"
    ignoreList := o.value? "ignore-symbols"
    checkAll := o.has "check-all-apis"
    opaqueDiffers := o.has "consider-opaque-types-different"
    weakMayChange := o.has "allow-adding-removing-weak-symbols"
    gate := {
      extensions := o.has "allow-extensions"
      unreferenced := o.has "allow-unreferenced-changes"
      symbolsGone := o.has "allow-unreferenced-elf-symbol-changes"
      adviceOnly := o.has "advice-only" }
    json := o.has "json" }

namespace Request

/-- The request of a command with its options; nothing if a required option is missing. -/
def ofCommand? (name : String) (args : List String) : Option Request :=
  match name with
  | "compare" => do
    let o ← compareOptions.read [] args
    return .compare (← CompareArgs.ofOptions? o)
  | "inspect" => do
    let o ← inspectOptions.read [] args
    return .inspect (← o.value? "dump") (o.has "json")
  | "format-dump" => do
    let o ← formatDumpOptions.read [] args
    return .formatDump (← o.value? "dump") (← o.value? "output")
  | _ => none

/-- What letters before the command mean. -/
inductive Letters where
  | refused
  | version
  | quiet
  | verbose

/-- Reads letters before the command: `v` at most once, and `V` ends the reading. -/
def readLetters (isVerbose : Bool) : List Char → Letters
  | [] => if isVerbose then .verbose else .quiet
  | 'V' :: _ => .version
  | 'v' :: cs => if isVerbose then .refused else readLetters true cs
  | _ => .refused

/-- The request of a line; nothing if the line is no good. -/
def parse (isVerbose : Bool) : List String → Option Request
  | [] => none
  | arg :: rest =>
    match Argument.ofText arg with
    | .stop => none
    | .word name => ofCommand? name rest
    | .long "version" none => some .version
    | .long "verbose" none => if isVerbose then none else parse true rest
    | .long _ _ => none
    | .short letters =>
      match readLetters isVerbose letters with
      | .refused => none
      | .version => some .version
      | .quiet => parse false rest
      | .verbose => parse true rest

/-- The request of a line; nothing if the line is no good. -/
def parse? (args : List String) : Option Request := parse false args

end Request

end AbiCompat.Cli
