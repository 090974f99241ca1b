/-
# Lists of keys to leave out

One key a line; blanks around it do not count, nor do blank lines and lines that start with a
number sign.

A line ends with a line feed.  A carriage return before it is one of the blanks that do not count.
-/
import AbiCompat.Compare.Policy
import AbiCompat.Text.Split

namespace AbiCompat.IgnoreList

/-- The key on a line; nothing if the line has none. -/
def key? (line : List Char) : Option String :=
  match Text.trim line with
  | [] => none
  | '#' :: _ => none
  | cs => some (String.ofList cs)

def parse (text : String) : KeySet :=
  KeySet.ofList ((Text.splitAt '\n' text.toList).filterMap key?)

end AbiCompat.IgnoreList
