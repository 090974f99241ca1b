/-
# Where the pairs that a walk notes come from

A walk notes what the declarations are written in and what its looks ask for, and nothing else.  A
change of types is found in the look at their ids, which is the first and the last at this pair: so
the pair was not noted before the comparison that found it, and it is afterwards.

`Meets` is said of the walk over two interfaces as a whole.  The pairs that it meets are those that
the declarations are written in, and parts of pairs that it meets (`Meets.sources`); among them are
the ids of the user-defined types that it compares, and those of every change of types that it
finds.
-/
import AbiCompat.Proofs.Paths
import AbiCompat.Proofs.Walk.Marks

namespace AbiCompat

namespace Scope

variable {scope : Scope} {reach : Reach} {w w₁ w' : Walk} {entries : List Entry}
  {p : String × String}

/-! ## Pairs -/

/-- The pair is a part of one that is noted. -/
def PartOfNoted (scope : Scope) (w : Walk) (p : String × String) : Prop :=
  ∃ use, ∃ q ∈ w.visited, scope.Parts use q p

theorem PartOfNoted.grows (h : scope.PartOfNoted w p) (grows : w.Grows w') :
    scope.PartOfNoted w' p := by
  obtain ⟨use, q, noted, part⟩ := h
  exact ⟨use, q, grows.visited noted, part⟩

theorem sources (scope : Scope) (reach : Reach) : scope.Invariant reach
    (fun w a b _ w' => ∀ p ∈ w'.visited, p ∈ w.visited ∨ p = (a, b) ∨ scope.PartOfNoted w' p)
    (fun w es w' => ∀ p ∈ w'.visited, p ∈ w.visited ∨ (∃ d, .asked p.1 p.2 d ∈ es)
      ∨ scope.PartOfNoted w' p) where
  done w p h := .inl h
  asked _ kept first rest p h := by
    rcases rest p h with before | ⟨d, mem⟩ | part
    · rcases first p before with before | rfl | part
      · exact .inl before
      · exact .inr (.inl ⟨_, List.mem_cons_self⟩)
      · exact .inr (.inr (part.grows kept.grows))
    · exact .inr (.inl ⟨d, List.mem_cons_of_mem _ mem⟩)
    · exact .inr (.inr part)
  reported _ rest p h := by
    rcases rest p h with before | ⟨d, mem⟩ | part
    · exact .inl before
    · exact .inr (.inl ⟨d, List.mem_cons_of_mem _ mem⟩)
    · exact .inr (.inr part)
  again _ p h := .inl h
  fresh {w a b es d w'} _ look kept events p h := by
    have left := Walk.Grows.leave w'
    rcases events p h with before | ⟨f, mem⟩ | part
    · rcases List.mem_cons.mp before with same | before
      · exact .inr (.inl same)
      · exact .inl before
    · obtain ⟨use, part⟩ := look.asked mem
      exact .inr (.inr ⟨use, (a, b), kept.grows.visited List.mem_cons_self, part⟩)
    · exact .inr (.inr (part.grows left))

theorem Tour.sources (tour : scope.Tour reach w entries w') : ∀ p ∈ w'.visited, p ∈ w.visited
    ∨ (∃ e ∈ entries, ∃ use, e.Part use p.1 p.2) ∨ scope.PartOfNoted w' p := by
  refine tour.keeps (P := fun v => ∀ p ∈ v.visited, p ∈ w.visited
    ∨ (∃ e ∈ entries, ∃ use, e.Part use p.1 p.2) ∨ scope.PartOfNoted v p) ?_ (fun p h => .inl h)
  intro v v₁ names e es listed trace run before p h
  obtain ⟨events, -⟩ := (scope.sources reach).of_trace trace
  rcases events p h with old | ⟨d, mem⟩ | part
  · rcases before p old with old | root | part
    · exact .inl old
    · exact .inr (.inl root)
    · exact .inr (.inr (part.grows (grows_of_trace trace)))
  · exact .inr (.inl ⟨e, listed, run.asked mem⟩)
  · exact .inr (.inr (part.grows ⟨List.Subset.refl _, List.Subset.refl _⟩))

/-! ## Findings -/

/-- If the change is one of types, the types are those of ids that were noted meanwhile. -/
def NotedMeanwhile (scope : Scope) (w w' : Walk) (ch : Change) : Prop :=
  ∀ s t, ch.types? = some (s, t) → scope.Resolves s.id t.id s t
    ∧ (s.id, t.id) ∉ w.visited ∧ (s.id, t.id) ∈ w'.visited

theorem NotedMeanwhile.mono {v v' : Walk} {ch : Change} (h : scope.NotedMeanwhile w w' ch)
    (before : v.visited ⊆ w.visited) (after : w'.visited ⊆ v'.visited) :
    scope.NotedMeanwhile v v' ch := by
  intro s t types
  obtain ⟨resolves, fresh, noted⟩ := h s t types
  exact ⟨resolves, fun old => fresh (before old), after noted⟩

theorem notes (scope : Scope) (reach : Reach) : scope.Invariant reach
    (fun w _ _ _ w' => ∀ f ∈ w'.findings, f ∈ w.findings ∨ scope.NotedMeanwhile w w' f.change)
    (fun w es w' => ∀ f ∈ w'.findings, f ∈ w.findings ∨ scope.NotedMeanwhile w w' f.change
      ∨ .reported f.change ∈ es) where
  done w f h := .inl h
  asked grows kept first rest f h := by
    rcases rest f h with before | noted | reported
    · rcases first f before with before | noted
      · exact .inl before
      · exact .inr (.inl (noted.mono (List.Subset.refl _) kept.grows.visited))
    · exact .inr (.inl (noted.mono grows.visited (List.Subset.refl _)))
    · exact .inr (.inr (List.mem_cons_of_mem _ reported))
  reported _ rest f h := by
    rcases rest f h with before | noted | reported
    · rcases List.mem_append.mp before with before | here
      · exact .inl before
      · cases List.mem_singleton.mp here
        exact .inr (.inr List.mem_cons_self)
    · exact .inr (.inl noted)
    · exact .inr (.inr (List.mem_cons_of_mem _ reported))
  again _ f h := .inl h
  fresh {w a b es d w'} fresh look kept events f h := by
    rcases events f h with before | noted | reported
    · exact .inl before
    · exact .inr (noted.mono (List.subset_cons_self _ _) (List.Subset.refl _))
    · refine .inr ?_
      intro s t types
      obtain ⟨s', t', resolves, types'⟩ := look.types_of_reported reported
      cases types'.symm.trans types
      cases Catalog.key_of_find? resolves.old
      cases Catalog.key_of_find? resolves.new
      exact ⟨resolves, fresh, kept.grows.visited List.mem_cons_self⟩

/-- The changes of types that some comparisons find are about pairs that they note. -/
theorem Tour.notes (tour : scope.Tour reach w entries w') :
    ∀ f ∈ w'.findings, f ∈ w.findings ∨ scope.NotedMeanwhile w w' f.change := by
  refine (tour.keeps (P := fun v => w.Grows v ∧
    ∀ f ∈ v.findings, f ∈ w.findings ∨ scope.NotedMeanwhile w v f.change) ?_
    ⟨.refl w, fun f h => .inl h⟩).2
  rintro v v₁ names e es - trace run ⟨grows, before⟩
  have further := grows_of_trace trace
  refine ⟨grows.trans further, ?_⟩
  intro f h
  obtain ⟨events, -⟩ := (scope.notes reach).of_trace trace
  rcases events f h with old | noted | reported
  · exact (before f old).imp_right fun noted => noted.mono (List.Subset.refl _) further.visited
  · exact .inr (noted.mono grows.visited (List.Subset.refl _))
  · refine .inr ?_
    intro s t types
    rw [types?_of_reason (run.reason reported)] at types
    cases types

end Scope

/-! ## Whole walks -/

namespace Scope

/-- The walk looks at the pair. -/
def Meets (scope : Scope) (p : String × String) : Prop := p ∈ (scope.walk.run .start).2.visited

variable {scope : Scope} {p : String × String}

theorem Meets.looked (h : scope.Meets p) :
    ∃ reach, scope.Looked reach (scope.walk.run .start).2 p := by
  obtain ⟨w, exported, rest⟩ := scope.walk_tour
  rcases rest.marks p h with before | looked
  · exact ⟨_, (exported.looked p before).grows rest.grows⟩
  · exact ⟨_, looked⟩

theorem Meets.sources (h : scope.Meets p) :
    (∃ e ∈ scope.exports, ∃ use, e.Part use p.1 p.2)
      ∨ (∃ s t, scope.policy.checkAll = true ∧ .type s t ∈ scope.userTypes ∧ p = (s.id, t.id))
      ∨ ∃ use q, scope.Meets q ∧ scope.Parts use q p := by
  obtain ⟨a, b⟩ := p
  obtain ⟨w, exported, rest⟩ := scope.walk_tour
  have later {q} (noted : scope.PartOfNoted (scope.walk.run .start).2 q) :
      ∃ use r, scope.Meets r ∧ scope.Parts use r q := noted
  rcases rest.sources _ h with before | ⟨e, listed, use, part⟩ | part
  · rcases exported.sources _ before with none | root | part
    · exact absurd none List.not_mem_nil
    · exact .inl root
    · exact .inr (.inr (later (part.grows rest.grows)))
  · split at listed
    · rename_i all
      cases part with
      | signature => exact absurd listed function_notMem_userTypes
      | global => exact absurd listed global_notMem_userTypes
      | type => exact .inr (.inl ⟨_, _, all, listed, rfl⟩)
    · exact absurd listed List.not_mem_nil
  · exact .inr (.inr (later part))

theorem meets_of_userType {s t : TypeDecl} (all : scope.policy.checkAll = true)
    (listed : .type s t ∈ scope.userTypes) : scope.Meets (s.id, t.id) := by
  obtain ⟨w, -, rest⟩ := scope.walk_tour
  rw [if_pos all] at rest
  refine rest.each (P := fun e w => e = .type s t → (s.id, t.id) ∈ w.visited) ?_ ?_ _ listed rfl
  · intro e w w' noted grows same
    exact grows.visited (noted same)
  · intro w w₁ names e es _ trace run same
    subst same
    cases run with
    | type => exact trace.kept.asked List.mem_cons_self

/-- A change of types is found only where the walk meets their ids. -/
theorem meets_of_finding {f : Finding} {s t : TypeDecl}
    (found : f ∈ (scope.walk.run .start).2.findings) (types : f.change.types? = some (s, t)) :
    scope.Resolves s.id t.id s t ∧ scope.Meets (s.id, t.id) := by
  obtain ⟨w, exported, rest⟩ := scope.walk_tour
  rcases rest.notes f found with before | noted
  · rcases exported.notes f before with none | noted
    · exact absurd none List.not_mem_nil
    · obtain ⟨resolves, -, noted⟩ := noted s t types
      exact ⟨resolves, rest.grows.visited noted⟩
  · obtain ⟨resolves, -, noted⟩ := noted s t types
    exact ⟨resolves, noted⟩

end Scope

end AbiCompat
