/-
# The commands

Every command reads and checks all its inputs before it writes anything.  A comparison writes one
file, the report, and at most makes the directory for it before; a command that counts writes none.

The files and the reader of settings are arguments: `run` is the program for any monad with the
three actions on files, and for any reader of settings.  On trees of files in memory it is a
function, which theorems can be about.

Only the first line of an error is modelled, with the path that it is about; what a system or a
parser adds to it below is not.
-/
import AbiCompat.Cli.Settings
import AbiCompat.Compare.Outcome
import AbiCompat.Dump.Summary
import AbiCompat.Files.Documents
import AbiCompat.Report.Document
import AbiCompat.Sha256

namespace AbiCompat.Cli

/-- What a run leaves on its two outputs, and its exit code. -/
structure Reply where
  code : UInt32
  out : String
  err : String
deriving DecidableEq

/-- Lines as a text. -/
def lines (ls : List String) : String := String.join (ls.map (· ++ "\n"))

/-- A dump that was read, with the fingerprint of its bytes. -/
structure LoadedDump where
  interface : Interface
  sha256 : String

/-- Everything that a comparison has to tell. -/
structure Comparison where
  args : CompareArgs
  settings : Settings
  old : LoadedDump
  new : LoadedDump

namespace Comparison

/-- What was found. -/
def outcome (c : Comparison) : Outcome :=
  compare c.old.interface c.new.interface c.settings.policy

/-- The report on what was found. -/
def report (c : Comparison) : Report := .of c.outcome c.settings.libName c.settings.arch

def exitCode (c : Comparison) : UInt32 := c.settings.gate.exitCode c.outcome.verdict

/-- The lists of the report that are not empty, by name. -/
def counts (c : Comparison) : Catalog (fun count : String × Nat => count.1) :=
  .ofList c.report.summary

/-- The summary as a JSON value. -/
def toJson (c : Comparison) : Json :=
  let r := c.report
  .object
    [("lib_name", .string c.settings.libName), ("arch", .string c.settings.arch),
      ("old_dump", .string c.args.old), ("old_sha256", .string c.old.sha256),
      ("new_dump", .string c.args.new), ("new_sha256", .string c.new.sha256),
      ("report", .string c.args.output),
      ("compatibility_status", .array (r.status.map .string)),
      ("compatibility_status_code", .ofNat r.statusCode.toNat),
      ("exit_code", .ofNat c.exitCode.toNat),
      ("counts", Dump.Summary.countsJson c.counts.items)]

/-- The summary as lines of text. -/
def outLines (c : Comparison) : List String :=
  let counts := c.report.summary
  [s!"ABI diff for {c.settings.libName}:"]
    ++ (if c.settings.arch = "" then [] else [s!"  Arch: {c.settings.arch}"])
    ++ [s!"  Status: {c.outcome.verdict.text}", s!"  Report: {c.args.output}"]
    ++ (if counts.isEmpty then ["  (no changes)"]
      else counts.map fun n => s!"  - {n.1}: {n.2}")

/-- The warning, if there is anything to warn of. -/
def errLines (c : Comparison) : List String :=
  let v := c.outcome.verdict
  if v.isCompatible then []
  else
    [s!"ABI changes detected in {c.settings.libName} ({v.text}); see {c.args.output}"]

def reply (c : Comparison) : Reply :=
  if c.args.json then ⟨c.exitCode, c.toJson.prettyDocument, ""⟩
  else ⟨c.exitCode, lines c.outLines, lines c.errLines⟩

end Comparison

section

variable {m : Type → Type} [Monad m] (files : Files m)

/-- Reads a dump. -/
def loadDump (path : String) : ExceptT Failure m LoadedDump := do
  let bs ← (files.readBytes path).adapt fun _ => Failure.dumpUnreadable path
  match Dump.load bs with
  | .ok interface => return ⟨interface, Sha256.hex bs⟩
  | .error _ => throw (.dumpInvalid path)

/-- Makes the directory that a path is in. -/
def createParent (path : String) : ExceptT Failure m Unit := do
  match Path.parent? path with
  | none | some "" => return ()
  | some parent =>
    match ← files.createDirs parent with
    | .ok () => return ()
    | .error _ => throw (.directoryNotMade parent)

/-- Reads two dumps and compares them. -/
def readComparison (reader : Config.Reader) (args : CompareArgs) :
    ExceptT Failure m Comparison := do
  let settings ← resolveSettings files args reader
  let old ← loadDump files args.old
  let new ← loadDump files args.new
  return ⟨args, settings, old, new⟩

/-- Compares two dumps and writes the report. -/
def runCompare (reader : Config.Reader) (args : CompareArgs) : ExceptT Failure m Comparison := do
  let c ← readComparison files reader args
  createParent files args.output
  (c.report.writePath files args.output).adapt fun _ => Failure.reportNotWritten args.output
  return c

/-- Counts what a dump holds. -/
def summarize (path : String) : ExceptT Failure m Dump.Summary := do
  let dump ← loadDump files path
  return .of path dump.sha256 dump.interface

/-- Writes the canonical form of a dump. -/
def runFormat (path output : String) : ExceptT Failure m Interface := do
  let dump ← loadDump files path
  (Dump.savePath files dump.interface output).adapt fun _ => Failure.dumpNotWritten output
  return dump.interface

/-- Runs a request. -/
def execute (reader : Config.Reader) : Request → ExceptT Failure m Reply
  | .version => return ⟨0, lines ["abi-diff 0.1.0"], ""⟩
  | .compare args => do
    let c ← runCompare files reader args
    return c.reply
  | .inspect path isJson => do
    let s ← summarize files path
    return ⟨0, if isJson then s.toJson.prettyDocument else lines s.lines, ""⟩
  | .formatDump path output => do
    let m ← runFormat files path output
    return ⟨0, lines ["Formatted dump:", s!"  Input: {path}", s!"  Output: {output}",
      s!"  Entities: {m.size}"], ""⟩

/-- Runs a command line.  A line that is no good ends with code 2, a failure with code 1. -/
def run (args : List String) (reader : Config.Reader := Config.parse?) : m Reply := do
  match Request.parse? args with
  | none => return ⟨2, "", ""⟩
  | some request =>
    match ← (execute files reader request).run with
    | .ok reply => return reply
    | .error e => return ⟨1, "", lines [s!"Error: {e.message}"]⟩

end

end AbiCompat.Cli
