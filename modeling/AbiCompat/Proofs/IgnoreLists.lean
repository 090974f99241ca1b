/-
# Lists of keys to leave out, put together and read back

A list is read line by line, so two lists with a line feed between them are one list with the keys
of both.  Which texts can be a key does not depend on the list: they are the texts on one line that
are not empty, begin and end with no blank, and are not taken for a comment.  Each of them comes
back from a line of its own, whatever blanks stand around it.

A carriage return is a blank.  So the line ends of either kind need no word in the proofs but this:
the carriage return before a line feed is one more blank after the key.

## What is proved

Two lists with a line feed between them are a list of the keys of both, for any two texts.  The
keys that lists can have are exactly the texts with `IsKey`.  Any set of such keys is read back
from any text that has each of them on a line, in any order, as often as one likes, with blanks
around it, and with line ends of either kind or none after the last line.

## What is not

Comments in the middle of what is written are not part of `written`; that lines without a key add
nothing is `mem_parse` and `key?_eq_some_iff`.
-/
import AbiCompat.IgnoreList
import AbiCompat.Proofs.Catalog

namespace AbiCompat

/-! ## Sets of keys -/

namespace KeySet

variable {a b : KeySet} {k : String}

theorem mem_ofList {keys : List String} : k ∈ (ofList keys).items ↔ k ∈ keys :=
  Catalog.mem_ofList fun _ _ _ _ same => same

theorem ext_mem (same : ∀ k, k ∈ a.items ↔ k ∈ b.items) : a = b :=
  Catalog.ext_items (Catalog.eq_of_ascending a.ascending b.ascending same)

theorem mem_union : k ∈ (a.union b).items ↔ k ∈ a.items ∨ k ∈ b.items := by
  have again : ofList a.items = a := ext_mem fun _ => mem_ofList
  have whole : ofList (a.items ++ b.items) = a.union b := by
    rw [ofList, Catalog.ofList, List.foldl_append, ← Catalog.ofList, ← ofList, again, union]
  rw [← whole, mem_ofList, List.mem_append]

end KeySet

namespace IgnoreList

variable {a b list : String} {k : String}

/-! ## The lines of a list -/

/-- The keys of a list are those of its lines. -/
theorem mem_parse : k ∈ (parse list).items ↔
    ∃ line ∈ Text.splitAt '\n' list.toList, key? line = some k := by
  rw [parse, KeySet.mem_ofList, List.mem_filterMap]

theorem parse_empty : parse "" = .empty := rfl

/-- A list that is put together from two has the keys of both. -/
theorem mem_parse_append : k ∈ (parse (a ++ "\n" ++ b)).items ↔
    k ∈ (parse a).items ∨ k ∈ (parse b).items := by
  have lines : Text.splitAt '\n' (a ++ "\n" ++ b).toList
      = Text.splitAt '\n' a.toList ++ Text.splitAt '\n' b.toList := by
    rw [← Text.splitAt_append]
    simp
  simp only [mem_parse, lines, List.mem_append, or_and_right, exists_or]

/-! ## Keys and the lines they stand on -/

/-- What a list can have for a key: a text on one line that is not empty, has no blanks to be
dropped, and is no comment. -/
structure IsKey (k : String) : Prop where
  ne_empty : k ≠ ""
  trimmed : Text.trim k.toList = k.toList
  one_line : '\n' ∉ k.toList
  no_comment : k.toList.head? ≠ some '#'

instance (k : String) : Decidable (IsKey k) :=
  decidable_of_iff
    (k ≠ "" ∧ Text.trim k.toList = k.toList ∧ '\n' ∉ k.toList ∧ k.toList.head? ≠ some '#')
    ⟨fun h => ⟨h.1, h.2.1, h.2.2.1, h.2.2.2⟩,
      fun h => ⟨h.ne_empty, h.trimmed, h.one_line, h.no_comment⟩⟩

theorem key?_eq_some_iff {line : List Char} : key? line = some k ↔
    Text.trim line = k.toList ∧ k ≠ "" ∧ k.toList.head? ≠ some '#' := by
  rw [key?]
  split
  · rename_i bare
    constructor
    · intro h
      cases h
    · rintro ⟨same, nonempty, -⟩
      rw [bare] at same
      exact absurd (String.toList_eq_nil_iff.mp same.symm) nonempty
  · rename_i rest comment
    constructor
    · intro h
      cases h
    · rintro ⟨same, -, plain⟩
      rw [← same, comment] at plain
      exact absurd rfl plain
  · rename_i nonempty plain
    constructor
    · intro h
      cases h
      rw [String.toList_ofList]
      refine ⟨rfl, fun empty => nonempty ?_, fun mark => ?_⟩
      · rw [← String.toList_ofList (l := Text.trim line), empty]
        rfl
      · obtain ⟨rest, comment⟩ := List.head?_eq_some_iff.mp mark
        exact plain rest comment
    · rintro ⟨same, -, -⟩
      rw [same, String.ofList_toList]

theorem isKey_of_key? {line : List Char} (one : '\n' ∉ line) (found : key? line = some k) :
    IsKey k := by
  obtain ⟨trimmed, nonempty, plain⟩ := key?_eq_some_iff.mp found
  refine ⟨nonempty, ?_, ?_, plain⟩
  · rw [← trimmed, Text.trim_trim]
  · rw [← trimmed]
    exact fun mem => one (Text.mem_of_mem_trim mem)

theorem isKey_of_mem_parse (mem : k ∈ (parse list).items) : IsKey k := by
  obtain ⟨line, listed, found⟩ := mem_parse.mp mem
  exact isKey_of_key? (Text.notMem_of_mem_splitAt listed) found

/-- Blanks that leave what stands between them on one line. -/
structure Padding (s : String) : Prop where
  blank : Text.Blank s.toList
  one_line : '\n' ∉ s.toList

instance (s : String) : Decidable (Padding s) :=
  decidable_of_iff (Text.Blank s.toList ∧ '\n' ∉ s.toList)
    ⟨fun h => ⟨h.1, h.2⟩, fun h => ⟨h.blank, h.one_line⟩⟩

theorem Padding.append {s t : String} (h : Padding s) (h' : Padding t) : Padding (s ++ t) where
  blank := by
    rw [String.toList_append]
    exact h.blank.append h'.blank
  one_line := by
    rw [String.toList_append, List.mem_append, not_or]
    exact ⟨h.one_line, h'.one_line⟩

theorem mem_parse_padded {before after j : String} (isKey : IsKey k) (padding : Padding before)
    (padding' : Padding after) : j ∈ (parse (before ++ k ++ after)).items ↔ j = k := by
  have chars : (before ++ k ++ after).toList = before.toList ++ k.toList ++ after.toList := by simp
  have one : '\n' ∉ (before ++ k ++ after).toList := by
    simp [padding.one_line, isKey.one_line, padding'.one_line]
  have found : key? (before ++ k ++ after).toList = some k := by
    refine key?_eq_some_iff.mpr ⟨?_, isKey.ne_empty, isKey.no_comment⟩
    rw [chars, Text.trim_padded padding.blank padding'.blank, isKey.trimmed]
  rw [mem_parse, Text.splitAt_of_notMem one]
  simp only [List.mem_singleton, exists_eq_left, found, Option.some.injEq, eq_comm]

/-! ## Lists as they are written -/

/-- The two ways to end a line. -/
inductive LineEnd where
  | lf
  | crlf

def LineEnd.text : LineEnd → String
  | lf => "\n"
  | crlf => "\r\n"

/-- A key on a line of its own, with blanks around it. -/
structure Line where
  before : String
  key : String
  after : String
  ending : LineEnd
  padding : Padding before ∧ Padding after

/-- A line without its end. -/
def Line.content (l : Line) : String := l.before ++ l.key ++ l.after

/-- The text of some lines.  The last one may lack its end. -/
def written (ended : Bool) : List Line → String
  | [] => ""
  | l :: ls =>
    l.content ++ (if ended || !ls.isEmpty then l.ending.text else "") ++ written ended ls

theorem LineEnd.exists_padding (e : LineEnd) : ∃ more, Padding more ∧ e.text = more ++ "\n" := by
  cases e with
  | lf => exact ⟨"", by decide, rfl⟩
  | crlf => exact ⟨"\r", by decide, rfl⟩

theorem mem_parse_line {l : Line} {rest : String} (isKey : IsKey l.key) :
    k ∈ (parse (l.content ++ l.ending.text ++ rest)).items
      ↔ k = l.key ∨ k ∈ (parse rest).items := by
  obtain ⟨more, padding, ending⟩ := l.ending.exists_padding
  have text : l.content ++ l.ending.text ++ rest
      = (l.before ++ l.key ++ (l.after ++ more)) ++ "\n" ++ rest := by
    simp only [Line.content, ending, String.append_assoc]
  rw [text, mem_parse_append, mem_parse_padded isKey l.padding.1 (l.padding.2.append padding)]

theorem mem_parse_written {ended : Bool} {lines : List Line} (keys : ∀ l ∈ lines, IsKey l.key) :
    k ∈ (parse (written ended lines)).items ↔ ∃ l ∈ lines, k = l.key := by
  induction lines with
  | nil => simp [written, parse_empty, Catalog.empty]
  | cons l ls ih =>
      have isKey := keys l List.mem_cons_self
      rw [written]
      split
      · rw [mem_parse_line isKey, ih fun l mem => keys l (List.mem_cons_of_mem _ mem)]
        simp
      · -- only the last line has no end, so nothing follows its content
        rename_i last
        obtain ⟨-, rfl⟩ : ended = false ∧ ls = [] := by simpa using last
        rw [written, String.append_empty, String.append_empty, Line.content,
          mem_parse_padded isKey l.padding.1 l.padding.2]
        simp

/-- Two lists with a line feed between them are a list of the keys of both.  The keys that lists can
have are those that are not empty, stand on one line with no blanks around them and are no comment.
Whatever set of such keys is written one a line, in any order, with line ends of either kind or none
after the last line, and with blanks around the keys: what is read is that set. -/
theorem lists_compose :
    (∀ a b : String, parse (a ++ "\n" ++ b) = (parse a).union (parse b)
        ∧ ∀ k, k ∈ (parse (a ++ "\n" ++ b)).items ↔ k ∈ (parse a).items ∨ k ∈ (parse b).items)
      ∧ (∀ k, (∃ list, k ∈ (parse list).items) ↔ IsKey k)
      ∧ ∀ (keys : KeySet) (lines : List Line) (ended : Bool), (∀ k ∈ keys.items, IsKey k) →
        (∀ k, k ∈ keys.items ↔ ∃ l ∈ lines, k = l.key) → parse (written ended lines) = keys := by
  refine ⟨fun a b => ⟨?_, fun k => mem_parse_append⟩, fun k => ⟨?_, fun isKey => ?_⟩, ?_⟩
  · refine KeySet.ext_mem fun k => ?_
    rw [mem_parse_append, KeySet.mem_union]
  · rintro ⟨list, mem⟩
    exact isKey_of_mem_parse mem
  · exact ⟨"" ++ k ++ "", (mem_parse_padded isKey (by decide) (by decide)).mpr rfl⟩
  · intro keys lines ended isKey same
    refine KeySet.ext_mem fun k => ?_
    rw [mem_parse_written, same]
    intro l mem
    exact isKey l.key ((same l.key).mpr ⟨l, mem, rfl⟩)

/-- Two keys on lines of different kinds, the last of which has no end. -/
def twoLines : List Line :=
  [⟨"\t", "_Z3foov", " \u00a0", .crlf, by decide⟩, ⟨"", "_Z3barv", "", .lf, by decide⟩]

theorem two_lines_read_back :
    (∀ k ∈ (KeySet.ofList ["_Z3foov", "_Z3barv"]).items, IsKey k)
      ∧ (∀ k, k ∈ (KeySet.ofList ["_Z3foov", "_Z3barv"]).items ↔ ∃ l ∈ twoLines, k = l.key)
      ∧ written false twoLines = "\t_Z3foov \u00a0\r\n_Z3barv"
      ∧ parse (written false twoLines) = KeySet.ofList ["_Z3foov", "_Z3barv"] := by
  have isKey : ∀ k ∈ (KeySet.ofList ["_Z3foov", "_Z3barv"]).items, IsKey k := by decide
  have same (k : String) : k ∈ (KeySet.ofList ["_Z3foov", "_Z3barv"]).items
      ↔ ∃ l ∈ twoLines, k = l.key := by
    simp [KeySet.mem_ofList, twoLines]
  exact ⟨isKey, same, by decide, lists_compose.2.2 _ twoLines false isKey same⟩

example :
    (parse "# header\n  _Z3foov  \n\n_Z3barv\n#_Z3bazv\n").items = ["_Z3barv", "_Z3foov"] := by
  decide

end IgnoreList

end AbiCompat
