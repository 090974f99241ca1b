/-
# Virtual tables of several releases

A caller sees the kind and the value of a slot, and the name of the function that the slot leads
to.

## What is proved

Two tables agree exactly if callers see the same in them.  So agreement is an equivalence, and of a
row of releases of which each agrees with the next one, any two agree.

The name without its thunk is a normal form: what is left of a nested name is no thunk again.  A
thunk of a name that is not nested keeps its name, and nothing else is left that is one.  A table
agrees with the one that has all its names in normal form.

All of it is for arbitrary texts, whether they are mangled names or not.  What the letters mean is
not asked: a name is that of a thunk if it starts with `_ZTv`, `_ZTh` or `_ZTc`, and what is left
of it is `_Z` and all that begins at its first `N`.

## What is not

That two slots with one normal form lead to the same function is for the mangling to say.
-/
import AbiCompat.Compare.Walk
import Mathlib.Data.List.Chain
import Mathlib.Data.List.TakeWhile
import Mathlib.Logic.Relation

namespace AbiCompat

/-! ## Names of thunks -/

/-- The name starts like the mangled name of a thunk. -/
def IsThunk (name : String) : Prop := ∃ p ∈ thunkPrefixes, p.toList <+: name.toList

variable {name : String}

theorem isThunk_iff :
    thunkPrefixes.any (fun p => p.toList.isPrefixOf name.toList) = true ↔ IsThunk name := by
  simp only [List.any_eq_true, List.isPrefixOf_iff_prefix, IsThunk]

theorem withoutThunk_of_not_isThunk (plain : ¬ IsThunk name) : withoutThunk name = name := by
  rw [withoutThunk, if_neg (mt isThunk_iff.mp plain)]

/-- The start of a nested name is not that of a thunk. -/
theorem not_isThunk_nested (rest : List Char) :
    ¬ IsThunk (String.ofList ('_' :: 'Z' :: 'N' :: rest)) := by
  rintro ⟨p, mem, start⟩
  rw [String.toList_ofList] at start
  simp only [thunkPrefixes, List.mem_cons, List.not_mem_nil, or_false] at mem
  rcases mem with rfl | rfl | rfl
  all_goals simp at start

/-- The name of a thunk of a nested name becomes a nested name; all other names stay. -/
theorem withoutThunk_cases (name : String) :
    (IsThunk name ∧ 'N' ∈ name.toList
        ∧ ∃ rest, withoutThunk name = String.ofList ('_' :: 'Z' :: 'N' :: rest))
      ∨ (¬ (IsThunk name ∧ 'N' ∈ name.toList) ∧ withoutThunk name = name) := by
  by_cases thunk : IsThunk name
  · cases nested : name.toList.dropWhile (· != 'N') with
    | nil =>
        have flat : 'N' ∉ name.toList := by
          intro mem
          have passed := List.dropWhile_eq_nil_iff.mp nested 'N' mem
          simp at passed
        refine .inr ⟨fun both => flat both.2, ?_⟩
        rw [withoutThunk, if_pos (isThunk_iff.mpr thunk), nested]
    | cons c rest =>
        have first : c = 'N' := by
          have stop := List.head?_dropWhile_not (· != 'N') name.toList
          rw [nested] at stop
          simpa using stop
        subst first
        have mem : 'N' ∈ name.toList := by
          refine (List.dropWhile_sublist (· != 'N')).subset ?_
          rw [nested]
          exact List.mem_cons_self
        refine .inl ⟨thunk, mem, rest, ?_⟩
        rw [withoutThunk, if_pos (isThunk_iff.mpr thunk), nested]
  · exact .inr ⟨fun both => thunk both.1, withoutThunk_of_not_isThunk thunk⟩

theorem isThunk_withoutThunk (name : String) :
    IsThunk (withoutThunk name) ↔ IsThunk name ∧ 'N' ∉ name.toList := by
  rcases withoutThunk_cases name with ⟨-, mem, rest, nested⟩ | ⟨flat, same⟩
  · rw [nested]
    exact iff_of_false (not_isThunk_nested rest) fun both => both.2 mem
  · rw [same]
    exact ⟨fun thunk => ⟨thunk, fun mem => flat ⟨thunk, mem⟩⟩, And.left⟩

theorem withoutThunk_idem (name : String) :
    withoutThunk (withoutThunk name) = withoutThunk name := by
  rcases withoutThunk_cases name with ⟨-, -, rest, nested⟩ | ⟨-, same⟩
  · rw [nested, withoutThunk_of_not_isThunk (not_isThunk_nested rest)]
  · rw [same, same]

/-! ## Tables -/

/-- The slot without the thunk that it goes through. -/
def Slot.direct (s : Slot) : Slot := { s with name := withoutThunk s.name }

theorem Slot.seen_direct (s : Slot) : s.direct.seen = s.seen := by
  rw [seen, seen, direct, withoutThunk_idem]

theorem vtablesAgree_direct (as : List Slot) : vtablesAgree as (as.map Slot.direct) = true := by
  rw [vtablesAgree_iff, List.map_map]
  exact List.map_congr_left fun s _ => s.seen_direct.symm

theorem vtablesAgree_equivalence : Equivalence fun as bs => vtablesAgree as bs = true := by
  have seen : (fun as bs => vtablesAgree as bs = true)
      = fun as bs : List Slot => as.map Slot.seen = bs.map Slot.seen := by
    funext as bs
    exact propext vtablesAgree_iff
  rw [seen]
  exact eq_equivalence.comap (List.map Slot.seen)

theorem vtablesAgree_chain (releases : List (List Slot)) :
    releases.IsChain (fun as bs => vtablesAgree as bs = true) ↔
      releases.Pairwise fun as bs => vtablesAgree as bs = true := by
  have : IsTrans (List Slot) fun as bs => vtablesAgree as bs = true :=
    ⟨fun _ _ _ => vtablesAgree_equivalence.trans⟩
  exact List.isChain_iff_pairwise

/-- Tables agree exactly if they have the same slots when each is seen without its thunk: the
agreement of tables is an equivalence, also along a row of releases, and a table agrees with its
own normal form.  A name from which the thunk was taken stays as it is, and it starts like that of
a thunk only if it did so before and has no `N`. -/
theorem vtables_normal :
    (∀ as bs : List Slot, vtablesAgree as bs = true ↔
        as.map (fun s => (s.kind, s.value, withoutThunk s.name))
          = bs.map fun s => (s.kind, s.value, withoutThunk s.name))
      ∧ Equivalence (fun as bs => vtablesAgree as bs = true)
      ∧ (∀ releases : List (List Slot),
        releases.IsChain (fun as bs => vtablesAgree as bs = true) ↔
          releases.Pairwise fun as bs => vtablesAgree as bs = true)
      ∧ (∀ as, vtablesAgree as (as.map Slot.direct) = true)
      ∧ (∀ name, withoutThunk (withoutThunk name) = withoutThunk name)
      ∧ (∀ name, IsThunk (withoutThunk name) ↔ IsThunk name ∧ 'N' ∉ name.toList) :=
  ⟨fun _ _ => vtablesAgree_iff, vtablesAgree_equivalence, vtablesAgree_chain, vtablesAgree_direct,
    withoutThunk_idem, isThunk_withoutThunk⟩

example : withoutThunk "_ZTv0_n24_N3Foo3barEv" = "_ZN3Foo3barEv" := by decide

end AbiCompat
