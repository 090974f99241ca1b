/-
# What a step of a walk does, seen from outside

The rules for one pair of types touch the state of the walk in two ways only: they ask for the
comparison of further pairs, and they report changes.  `Does` says of a step which events it goes
through and what it answers; nothing else about the step matters to the state that it leaves.

`Does` has a rule for each way that steps are made: `pure`, `bind`, `ask` and `report`.  A clause
of the program is taken apart by them once, in `Clauses`, `Fields` and `Looks`.  A `Trace` is what
the events come to when the comparison of pairs is given.

A step is not asked to be a function of its events.  That it is follows from what is said of it,
where it is needed.
-/
import AbiCompat.Compare.Walk

namespace AbiCompat

/-- The state with one more finding on the present path. -/
def Walk.report (w : Walk) (reach : Reach) (change : Change) : Walk :=
  { w with findings := w.findings ++ [⟨reach, w.stack.reverse, change⟩] }

/-- The state in which a pair is noted and under comparison. -/
def Walk.enter (w : Walk) (pair : String × String) (name : String) : Walk :=
  { w with visited := pair :: w.visited, stack := name :: w.stack }

/-- The state after a comparison has ended. -/
def Walk.leave (w : Walk) : Walk := { w with stack := w.stack.tail }

/-- The state with these names on the path. -/
def Walk.resetStack (w : Walk) (names : List String) : Walk := { w with stack := names }

/-- One thing that a step does. -/
inductive Event where
  /-- The comparison of a pair was asked for, and this was the answer. -/
  | asked (a b : String) (answer : Difference)
  | reported (change : Change)

/-- What a report that depends on a flag comes to. -/
def reportOf (flag : Bool) (change : Change) : List Event :=
  if flag then [.reported change] else []

@[simp] theorem mem_reportOf {flag : Bool} {change : Change} {e : Event} :
    e ∈ reportOf flag change ↔ flag = true ∧ e = .reported change := by
  cases flag <;> simp [reportOf]

theorem asked_notMem_reportOf {flag : Bool} {change : Change} {a b : String} {d : Difference} :
    .asked a b d ∉ reportOf flag change := by
  simp

/-- Events that lead from one state to another, where `visit` compares the pairs. -/
inductive Trace (visit : Visit) (reach : Reach) : Walk → List Event → Walk → Prop
  | done (w : Walk) : Trace visit reach w [] w
  | asked {w w' : Walk} {a b : String} {es : List Event} :
      Trace visit reach ((visit a b).run w).2 es w' →
      Trace visit reach w (.asked a b ((visit a b).run w).1 :: es) w'
  | reported {w w' : Walk} {change : Change} {es : List Event} :
      Trace visit reach (w.report reach change) es w' →
      Trace visit reach w (.reported change :: es) w'

theorem Trace.append {visit : Visit} {reach : Reach} {w₁ w₂ w₃ : Walk} {es es' : List Event}
    (h : Trace visit reach w₁ es w₂) (h' : Trace visit reach w₂ es' w₃) :
    Trace visit reach w₁ (es ++ es') w₃ := by
  induction h with
  | done => exact h'
  | asked _ ih => exact .asked (ih h')
  | reported _ ih => exact .reported (ih h')

/-- Events in two portions have a state between them. -/
theorem Trace.of_append {visit : Visit} {reach : Reach} {w w' : Walk} {es es' : List Event}
    (h : Trace visit reach w (es ++ es') w') :
    ∃ w₁, Trace visit reach w es w₁ ∧ Trace visit reach w₁ es' w' := by
  induction es generalizing w with
  | nil => exact ⟨w, .done w, h⟩
  | cons e es ih =>
      cases h with
      | asked h =>
          obtain ⟨w₁, first, rest⟩ := ih h
          exact ⟨w₁, .asked first, rest⟩
      | reported h =>
          obtain ⟨w₁, first, rest⟩ := ih h
          exact ⟨w₁, .reported first, rest⟩

theorem Trace.answer {visit : Visit} {reach : Reach} {w w' : Walk} {a b : String}
    {d : Difference} {es : List Event} (h : Trace visit reach w (.asked a b d :: es) w') :
    d = ((visit a b).run w).1 := by
  cases h
  rfl

/-- From every state the step goes through events, and gives an answer, that are as
`post` says. -/
def Does {α : Type} (visit : Visit) (reach : Reach) (step : Walking α)
    (post : List Event → α → Prop) : Prop :=
  ∀ w, ∃ es, Trace visit reach w es (step.run w).2 ∧ post es (step.run w).1

namespace Does

variable {α β : Type} {visit : Visit} {reach : Reach}

theorem mono {step : Walking α} {post post' : List Event → α → Prop}
    (h : Does visit reach step post) (weaker : ∀ es x, post es x → post' es x) :
    Does visit reach step post' := by
  intro w
  obtain ⟨es, trace, holds⟩ := h w
  exact ⟨es, trace, weaker es _ holds⟩

theorem pure {x : α} {post : List Event → α → Prop} (h : post [] x) :
    Does visit reach (Pure.pure x) post :=
  fun w => ⟨[], .done w, h⟩

/-- A step and what is done with its answer. -/
theorem bind {step : Walking α} {next : α → Walking β} {post : List Event → α → Prop}
    {post' : List Event → β → Prop} (h : Does visit reach step post)
    (h' : ∀ es x, post es x → Does visit reach (next x) (fun es' y => post' (es ++ es') y)) :
    Does visit reach (step >>= next) post' := by
  intro w
  obtain ⟨es, trace, holds⟩ := h w
  obtain ⟨es', trace', holds'⟩ := h' es _ holds (step.run w).2
  exact ⟨es ++ es', trace.append trace', holds'⟩

theorem ask {a b : String} :
    Does visit reach (visit a b) (fun es d => es = [.asked a b d]) :=
  fun _ => ⟨_, .asked (.done _), rfl⟩

theorem report {change : Change} :
    Does visit reach (Walking.report reach change) (fun es _ => es = [.reported change]) :=
  fun _ => ⟨_, .reported (.done _), rfl⟩

end Does

/-- The comparison of the pair was asked for, and the answer was a direct difference. -/
def DirectIn (es : List Event) (a b : String) : Prop := ∃ d, .asked a b d ∈ es ∧ d.isDirect

theorem not_directIn_nil {a b : String} : ¬ DirectIn [] a b := by
  rintro ⟨d, h, -⟩
  exact absurd h List.not_mem_nil

theorem directIn_cons_asked {es : List Event} {a b c e : String} {d : Difference}
    (h : DirectIn (.asked c e d :: es) a b) :
    (a, b) = (c, e) ∧ d.isDirect = true ∨ DirectIn es a b := by
  obtain ⟨d', mem, direct⟩ := h
  rcases List.mem_cons.mp mem with same | mem
  · cases same
    exact .inl ⟨rfl, direct⟩
  · exact .inr ⟨d', mem, direct⟩

theorem directIn_cons_reported {es : List Event} {a b : String} {ch : Change}
    (h : DirectIn (.reported ch :: es) a b) : DirectIn es a b := by
  obtain ⟨d, mem, direct⟩ := h
  rcases List.mem_cons.mp mem with same | mem
  · cases same
  · exact ⟨d, mem, direct⟩

theorem DirectIn.mono {es es' : List Event} {a b : String} (h : DirectIn es a b)
    (sub : es ⊆ es') : DirectIn es' a b := by
  obtain ⟨d, hd, direct⟩ := h
  exact ⟨d, sub hd, direct⟩

theorem directIn_append {es es' : List Event} {a b : String} :
    DirectIn (es ++ es') a b ↔ DirectIn es a b ∨ DirectIn es' a b := by
  simp only [DirectIn, List.mem_append]
  constructor
  · rintro ⟨d, h | h, direct⟩
    · exact .inl ⟨d, h, direct⟩
    · exact .inr ⟨d, h, direct⟩
  · rintro (⟨d, h, direct⟩ | ⟨d, h, direct⟩)
    · exact ⟨d, .inl h, direct⟩
    · exact ⟨d, .inr h, direct⟩

end AbiCompat
