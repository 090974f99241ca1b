/-
# What the actions on a tree of files change

Three frames, one for each action that can change a tree:

    reading              nothing changes (it is a function to an answer)
    making directories   `Gains`: no file changes, every directory stays, and each directory that is
                         new is where the path, or one above it, leads
    writing              `Written`: besides, the one file that the path leads to has the bytes

Following a path asks for directories only.  So a path that leads somewhere leads there still when
there are more directories and when files are written (`spot_mono`), and this is why the frames
compose: the directories are made first, and then the file is written where the path led all along.

Paths are followed as they are spelled.  Two paths may lead to one place, over `.` and `..` and
doubled slashes, so the statements are about the places that paths lead to and not about paths.
-/
import AbiCompat.Files.Tree
import Mathlib.Logic.Relation

namespace AbiCompat

/-- The first path is that of the directory which the second one is in. -/
def Path.IsParent (above path : String) : Prop := parent? path = some above

/-- The first path is that of a directory which the second one is in, next to it or further up. -/
def Path.IsAbove : String → String → Prop := Relation.TransGen IsParent

namespace FileTree

variable {t t' t'' : FileTree} {p q d : Place} {path : String} {paths : String → Prop}
  {bytes : Bytes}

theorem bind_eq_ok {ε α β : Type} {x : Except ε α} {f : α → Except ε β} {b : β}
    (done : x.bind f = .ok b) : ∃ a, x = .ok a ∧ f a = .ok b := by
  cases x with
  | error e => cases done
  | ok a => exact ⟨a, rfl, done⟩

/-! ## Files

A file that is put is there, and every other one is as before. -/

theorem lookup_cons_eq (f : Place × Bytes) (files : List (Place × Bytes)) (q : Place) :
    (f :: files).lookup q = if q = f.1 then some f.2 else files.lookup q := by
  obtain ⟨p, bytes⟩ := f
  by_cases same : q = p
  · subst same
    simp
  · simp [List.lookup_cons, beq_eq_false_iff_ne.mpr same, same]

theorem lookup_map_replace (files : List (Place × Bytes)) (p q : Place) (bytes : Bytes) :
    (files.map fun f => if f.1 = p then (p, bytes) else f).lookup q =
      if q = p then (files.lookup p).map fun _ => bytes else files.lookup q := by
  induction files with
  | nil => simp
  | cons f files ih =>
      rw [List.map_cons, lookup_cons_eq, lookup_cons_eq, lookup_cons_eq, ih]
      by_cases replaced : f.1 = p
      · subst replaced
        by_cases same : q = f.1 <;> simp [same]
      · rw [if_neg replaced, if_neg (Ne.symm replaced)]
        by_cases same : q = p
        · subst same
          simp [Ne.symm replaced]
        · simp [same]

theorem fileAt?_put (t : FileTree) (p q : Place) (bytes : Bytes) :
    (t.put p bytes).fileAt? q = if q = p then some bytes else t.fileAt? q := by
  unfold put fileAt?
  split
  · rename_i there
    obtain ⟨old, found⟩ := Option.isSome_iff_exists.mp there
    show List.lookup q (t.files.map _) = _
    rw [lookup_map_replace, found]
    rfl
  · rename_i gone
    rw [Option.not_isSome_iff_eq_none] at gone
    show List.lookup q (t.files ++ [(p, bytes)]) = _
    rw [List.lookup_append, lookup_cons_eq, List.lookup_nil]
    by_cases same : q = p
    · subst same
      simp [gone]
    · simp [same]

@[simp] theorem hasDir_put (t : FileTree) (p d : Place) (bytes : Bytes) :
    (t.put p bytes).hasDir d = t.hasDir d := by
  unfold put
  split <;> rfl

/-! ## Following paths

More directories do not change where names lead: each name before the last is a directory already.
-/

/-- The place that a path has led to. -/
def Spot.place : Spot → Place
  | directory p => p
  | entry parent name _ => parent ++ [name]

/-- The path leads to the place, as far as directories are concerned. -/
def LeadsTo (t : FileTree) (path : String) (p : Place) : Prop :=
  ∃ s, t.spot path = .ok s ∧ s.place = p

section More

variable (more : ∀ d, t.hasDir d = true → t'.hasDir d = true)

include more

theorem follow_mono {start : Place} {names : List String} {s : Spot}
    (led : t.follow start names = .ok s) : t'.follow start names = .ok s := by
  fun_induction follow t start names with
  | case1 start => exact led
  | case2 start name rest idle ih =>
      rw [follow, if_pos idle]
      exact ih led
  | case3 start rest idle ih =>
      rw [follow, if_neg idle, if_pos rfl]
      exact ih led
  | case4 start name rest idle up last =>
      rw [follow, if_neg idle, if_neg up, if_pos last]
      exact led
  | case5 => cases led
  | case6 start name rest idle up later short p dir ih =>
      rw [follow, if_neg idle, if_neg up, if_neg later, if_neg short, if_pos (more _ dir)]
      exact ih led
  | case7 => cases led
  | case8 => cases led

theorem spot_mono {s : Spot} (led : t.spot path = .ok s) : t'.spot path = .ok s := by
  unfold spot at led ⊢
  split at led
  · cases led
  · rename_i plain
    rw [if_neg plain]
    split at led
    · cases led
    · rename_i short
      rw [if_neg short]
      split at led
      · cases led
      · exact follow_mono more led
      · exact follow_mono more led

theorem LeadsTo.mono (led : t.LeadsTo path p) : t'.LeadsTo path p := by
  obtain ⟨s, spot, place⟩ := led
  exact ⟨s, spot_mono more spot, place⟩

end More

/-! ## Making directories

A directory is made where its path leads, which is a free place.  Making those above it comes first
and may come to a stop on the way; what was made by then stays. -/

/-- The second tree has the files of the first and all its directories.  Each of its directories
that is new is at a free place, where one of the paths leads. -/
structure Gains (t : FileTree) (paths : String → Prop) (t' : FileTree) : Prop where
  files : t'.files = t.files
  kept : ∀ d, t.hasDir d = true → t'.hasDir d = true
  made : ∀ d, t'.hasDir d = true →
    t.hasDir d = true ∨ t.fileAt? d = none ∧ ∃ path, paths path ∧ t'.LeadsTo path d

namespace Gains

theorem refl (t : FileTree) (paths : String → Prop) : t.Gains paths t :=
  ⟨rfl, fun _ => id, fun _ => .inl⟩

theorem fileAt? (gains : t.Gains paths t') (p : Place) : t'.fileAt? p = t.fileAt? p := by
  rw [FileTree.fileAt?, gains.files]
  rfl

theorem trans (first : t.Gains paths t') (second : t'.Gains paths t'') : t.Gains paths t'' where
  files := second.files.trans first.files
  kept d there := second.kept d (first.kept d there)
  made d there := by
    rcases second.made d there with there | ⟨free, leads⟩
    · refine (first.made d there).imp_right ?_
      rintro ⟨free, path, listed, leads⟩
      exact ⟨free, path, listed, leads.mono second.kept⟩
    · rw [first.fileAt?] at free
      exact .inr ⟨free, leads⟩

end Gains

theorem write_eq_ok (written : t.write path bytes = .ok t') : ∃ parent name,
    t.spot path = .ok (.entry parent name false) ∧ isTooLong name = false
      ∧ t.hasDir (parent ++ [name]) = false ∧ t' = t.put (parent ++ [name]) bytes := by
  obtain ⟨s, led, written⟩ := bind_eq_ok written
  cases s with
  | directory p => cases written
  | entry parent name isSlashed =>
      cases isSlashed with
      | true => cases written
      | false =>
          refine ⟨parent, name, led, ?_⟩
          simp only [Bool.false_eq_true, ↓reduceIte] at written
          split at written
          · cases written
          · rename_i short
            split at written
            · cases written
            · rename_i free
              cases written
              exact ⟨Bool.eq_false_iff.mpr short, Bool.eq_false_iff.mpr free, rfl⟩

theorem read_of_write (written : t.write path bytes = .ok t') : t'.read path = .ok bytes := by
  obtain ⟨parent, name, led, short, free, rfl⟩ := write_eq_ok written
  have more (d : Place) (there : t.hasDir d = true) :
      (t.put (parent ++ [name]) bytes).hasDir d = true := (hasDir_put ..).trans there
  have still := spot_mono more led
  rw [read, still]
  simp [bind, Except.bind, short, free, fileAt?_put]

/-- The second tree is the first with one file written, which the path leads to and which is read
back, and with directories that the path is in. -/
structure Written (t : FileTree) (path : String) (bytes : Bytes) (t' : FileTree) : Prop where
  reads : t'.read path = .ok bytes
  files : ∃ p, t'.LeadsTo path p ∧ ∀ q, t'.fileAt? q = if q = p then some bytes else t.fileAt? q
  kept : ∀ d, t.hasDir d = true → t'.hasDir d = true
  made : ∀ d, t'.hasDir d = true →
    t.hasDir d = true ∨ t.fileAt? d = none ∧ ∃ above, Path.IsAbove above path ∧ t'.LeadsTo above d

/-- Making the directories and then writing the file changes nothing else. -/
theorem Gains.written (gains : t.Gains (Path.IsAbove · path) t')
    (done : t'.write path bytes = .ok t'') : t.Written path bytes t'' := by
  obtain ⟨parent, name, led, -, -, rfl⟩ := write_eq_ok done
  have dirs (d : Place) : (t'.put (parent ++ [name]) bytes).hasDir d = t'.hasDir d := hasDir_put ..
  have more (d : Place) (there : t'.hasDir d = true) :
      (t'.put (parent ++ [name]) bytes).hasDir d = true := (dirs d).trans there
  refine ⟨read_of_write done, ⟨_, ⟨_, spot_mono more led, rfl⟩, ?_⟩, ?_, ?_⟩
  · intro q
    rw [fileAt?_put, gains.fileAt?]
    rfl
  · intro d there
    exact more d (gains.kept d there)
  · intro d there
    rw [dirs] at there
    refine (gains.made d there).imp_right ?_
    rintro ⟨free, above, up, leads⟩
    exact ⟨free, above, up, leads.mono more⟩

end FileTree

end AbiCompat
