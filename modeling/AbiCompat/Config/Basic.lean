/-
# Settings files

Every setting may be left out; a name that is no setting is refused, so that a slip of the pen does
not weaken a check.

## What is modelled

A text of settings is read by a `Config.Reader`, any function from texts to settings.  The commands
take the reader as an argument, and what is proved about them is proved for every reader.

`Config.parse?` is the reader that the program is run with.  It is not a reader of YAML: it reads
the flat mappings that settings are, as far as `Yaml` goes, and refuses block scalars, anchors,
aliases, tags, directives and nested mappings.  Of a text that has any of these it says nothing
about what another reader makes of it, and no theorem rests on it but for single texts that are
flat mappings.
-/
import AbiCompat.Compare.Policy
import AbiCompat.Yaml.Mapping
import AbiCompat.Gate

namespace AbiCompat

/-- The settings of a file. -/
structure Config where
  libName : Option String
  arch : Option String
  opaqueDiffers : Bool
  checkAll : Bool
  weakMayChange : Bool
  ignored : List String
  gate : Gate
deriving DecidableEq

namespace Config

/-- What reads the text of a settings file; nothing if the text gives no settings. -/
abbrev Reader := String → Option Config

/-- The settings of an empty file. -/
def initial : Config := ⟨none, none, false, false, false, [], .closed⟩

/-- The truth value that a scalar stands for. -/
def flag? : Yaml.Node → Option Bool
  | .scalar (.plain text) =>
    if text = "true" ∨ text = "True" ∨ text = "TRUE" then some true
    else if text = "false" ∨ text = "False" ∨ text = "FALSE" then some false
    else none
  | _ => none

/-- The plain scalars that stand for nothing. -/
def isNull (text : String) : Bool :=
  text == "" || text == "~" || text == "null" || text == "Null" || text == "NULL"

/-- The text that a scalar stands for, which may be no text. -/
def text? : Yaml.Node → Option (Option String)
  | .scalar (.plain text) => some (if isNull text then none else some text)
  | .scalar (.quoted text) => some (some text)
  | .list _ => none

/-- The texts of a list; nothing at all is the empty list. -/
def texts? : Yaml.Node → Option (List String)
  | .list items => some (items.map Yaml.Scalar.text)
  | .scalar (.plain "") => some []
  | .scalar _ => none

/-- The settings with one more set. -/
def set? (c : Config) (name : String) (value : Yaml.Node) : Option Config :=
  match name with
  | "lib_name" => (text? value).map fun x => { c with libName := x }
  | "arch" => (text? value).map fun x => { c with arch := x }
  | "treat_opaque_as_different" => (flag? value).map fun x => { c with opaqueDiffers := x }
  | "check_all_apis" => (flag? value).map fun x => { c with checkAll := x }
  | "allow_adding_removing_weak_symbols" =>
    (flag? value).map fun x => { c with weakMayChange := x }
  | "ignored_symbols" => (texts? value).map fun x => { c with ignored := x }
  | "allow_extensions" =>
    (flag? value).map fun x => { c with gate := { c.gate with extensions := x } }
  | "allow_unreferenced_changes" =>
    (flag? value).map fun x => { c with gate := { c.gate with unreferenced := x } }
  | "allow_unreferenced_elf_symbol_changes" =>
    (flag? value).map fun x => { c with gate := { c.gate with symbolsGone := x } }
  | "advice_only" =>
    (flag? value).map fun x => { c with gate := { c.gate with adviceOnly := x } }
  | _ => none

/-- The settings of a mapping; no name may come twice. -/
def ofMapping? (m : Yaml.Mapping) : Option Config :=
  if (m.map (·.1)).Nodup then m.foldlM (fun c e => c.set? e.1 e.2) initial else none

/-- The settings that a text gives, read as a flat mapping. -/
def parse? (text : String) : Option Config := (Yaml.parse? text).bind ofMapping?

/-- The policy of the settings. -/
def policy (c : Config) : Policy :=
  ⟨c.opaqueDiffers, c.checkAll, c.weakMayChange, KeySet.ofList c.ignored⟩

end Config

end AbiCompat
