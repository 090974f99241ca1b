/-
# Flat mappings

What settings are written as: names that stand for scalars and for lists of scalars.

## What is read, and what is not

The modules below `Yaml` read texts of this form in block and in flow style, with comments, plain
and quoted scalars over one line or several, and the marks around a document.  They are a reader
for settings and not one for YAML.  A text is refused, though it may be well formed, if it has

* block scalars (literal or folded),
* anchors, aliases or tags,
* directives,
* more than one document, or
* a mapping or a list inside a list, or a mapping inside a mapping.

A comparison takes its reader of settings as an argument, and what is proved about it holds for
every reader.  This one is what the program and its tests are run with.
-/

namespace AbiCompat.Yaml

/-- A scalar; a plain one may stand for a truth value or for nothing. -/
inductive Scalar where
  | plain (text : String)
  | quoted (text : String)
deriving DecidableEq

namespace Scalar

def text : Scalar → String
  | plain text => text
  | quoted text => text

/-- The scalar that is not written. -/
def empty : Scalar := .plain ""

end Scalar

/-- What a name stands for. -/
inductive Node where
  | scalar (s : Scalar)
  | list (items : List Scalar)
deriving DecidableEq

/-- A mapping in the order of the text. -/
abbrev Mapping := List (String × Node)

end AbiCompat.Yaml
