/-
# Which changed fields a record lists

The fields of a record are compared one after the other in one walk, and the walk calls two types
the same that it has met before.  So the finding about a record lists a field whose type changed
only where the walk has not met the change yet.

## What is proved

Of the fields that two records share by name, the finding about the records that a comparison
starts from lists those which cannot stand for each other, and no others.  It leaves a field out
only where nothing but the types differ and their difference is masked; and it always leaves such a
field out where a field that is compared before has the same two types.  With two fields that both
turn from `int` to `long`, the second one is missing.

## How

`Followed` says what becomes of each pair that a comparison notes: either it does not differ by
itself and what it passes on was followed too, or the way to it goes through a part whose
differences are not passed on, or it has made the answer direct.  A field that should be listed and
is not must therefore be masked: everything that makes its type differ was met below a field that
is compared earlier, or lies behind such a part.

## What is not

Records that a comparison meets on its way are met with a note of what came before them, which may
mask more, and nothing is said of them.  Fields without a name are left aside, and those with one
are to have different names in each record.
-/
import AbiCompat.Proofs.Justified
import AbiCompat.Proofs.Walk.Ending
import AbiCompat.Proofs.Walk.Visits

namespace AbiCompat

theorem RecordLayout.Part.ne_passedOn {a b : RecordLayout} {use : Use} {c e : String}
    (part : a.Part b use c e) : use ≠ .passedOn := by
  cases part with
  | field judged => cases judged <;> exact nofun
  | base | argument => exact nofun

namespace Scope

variable {scope : Scope} {reach : Reach} {w w₁ w' : Walk} {p q r : String × String}

/-! ## What lies inside a pair -/

/-- The second pair lies inside the first one, at whatever depth and whatever becomes of its
differences. -/
def Below (scope : Scope) : String × String → String × String → Prop :=
  Relation.ReflTransGen fun p q => ∃ use, scope.Parts use p q

/-- Inside the first pair there is a part whose differences are not passed on, and it leads to the
second pair. -/
def LetGo (scope : Scope) (p q : String × String) : Prop :=
  ∃ use m n, use ≠ .passedOn ∧ scope.Below p m ∧ scope.Parts use m n ∧ scope.Leads n q

theorem Below.of_leads (h : scope.Leads p q) : scope.Below p q :=
  Relation.ReflTransGen.mono (fun _ _ passes => ⟨_, passes⟩) _ _ h

theorem LetGo.of_part {use : Use} (part : scope.Parts use p q) (h : scope.LetGo q r) :
    scope.LetGo p r := by
  obtain ⟨use', m, n, other, below, part', leads⟩ := h
  exact ⟨use', m, n, other, .head ⟨use, part⟩ below, part', leads⟩

theorem LetGo.leads (h : scope.LetGo p q) (leads : scope.Leads q r) : scope.LetGo p r := by
  obtain ⟨use, m, n, other, below, part, leads'⟩ := h
  exact ⟨use, m, n, other, below, part, leads'.trans leads⟩

theorem staysBelow (scope : Scope) (reach : Reach) : scope.Invariant reach
    (fun w a b _ w' => ∀ q ∈ w'.visited, q ∈ w.visited ∨ scope.Below (a, b) q)
    (fun w es w' => ∀ q ∈ w'.visited, q ∈ w.visited
      ∨ ∃ a b d, .asked a b d ∈ es ∧ scope.Below (a, b) q) where
  done w q h := .inl h
  asked _ _ first rest q h := by
    rcases rest q h with before | ⟨a, b, d, mem, below⟩
    · refine (first q before).imp_right fun below => ?_
      exact ⟨_, _, _, List.mem_cons_self, below⟩
    · exact .inr ⟨a, b, d, List.mem_cons_of_mem _ mem, below⟩
  reported _ rest q h := by
    refine (rest q h).imp_right ?_
    rintro ⟨a, b, d, mem, below⟩
    exact ⟨a, b, d, List.mem_cons_of_mem _ mem, below⟩
  again _ q h := .inl h
  fresh {w a b es d w'} _ look _ events q h := by
    rcases events q h with before | ⟨c, e, f, mem, below⟩
    · rcases List.mem_cons.mp before with rfl | before
      · exact .inr .refl
      · exact .inl before
    · obtain ⟨use, part⟩ := look.asked mem
      exact .inr (.head ⟨use, part⟩ below)

/-! ## What becomes of a pair that is noted -/

/-- What becomes of a pair that is noted while the pairs of `asked` are compared, with these
answers. -/
inductive Followed (scope : Scope) (w : Walk) (asked : String × String → Difference → Prop)
    (q : String × String) : Prop
  | clean : ¬ scope.DiffersHere q → (∀ {r}, scope.Passes q r → r ∈ w.visited) →
      Followed scope w asked q
  | letGo {p : String × String} {d : Difference} : asked p d → scope.LetGo p q →
      Followed scope w asked q
  | answered {p : String × String} {d : Difference} : asked p d → d.isDirect = true →
      scope.Leads p q → Followed scope w asked q

theorem Followed.mono {asked asked' : String × String → Difference → Prop}
    (h : scope.Followed w asked q) (grows : w.Grows w') (more : ∀ {p d}, asked p d → asked' p d) :
    scope.Followed w' asked' q := by
  cases h with
  | clean alike all => exact .clean alike fun passes => grows.visited (all passes)
  | letGo mem letGo => exact .letGo (more mem) letGo
  | answered mem direct leads => exact .answered (more mem) direct leads

theorem Looks.direct_part {a b c e : String} {es : List Event} {d : Difference}
    (look : scope.Looks a b es d) (h : DirectIn es c e) :
    d.isDirect = true ∧ scope.Passes (a, b) (c, e)
      ∨ ∃ use, use ≠ .passedOn ∧ scope.Parts use (a, b) (c, e) := by
  cases look with
  | unresolved | ignored => exact absurd h not_directIn_nil
  | types resolves run =>
      cases run with
      | differ | builtin => exact absurd h not_directIn_nil
      | target kind target =>
          obtain ⟨f, mem, direct⟩ := h
          cases List.mem_singleton.mp mem
          exact .inl ⟨direct, _, _, resolves, .target kind target⟩
      | enum =>
          obtain ⟨f, mem, -⟩ := h
          exact absurd mem asked_notMem_reportOf
      | record hs ht _ run =>
          obtain ⟨f, mem, -⟩ := h
          obtain ⟨use, part⟩ := run.asked mem
          exact .inr ⟨use, part.ne_passedOn, _, _, resolves, .layout hs ht part⟩
      | function hs ht run =>
          rcases run.used h with ⟨direct, part⟩ | part
          · exact .inl ⟨direct, _, _, resolves, .signature hs ht part⟩
          · exact .inr ⟨.dropped, nofun, _, _, resolves, .signature hs ht part⟩

/-- Every pair that is noted meanwhile is followed. -/
theorem follows (scope : Scope) (reach : Reach) : scope.Invariant reach
    (fun w a b d w' => ∀ q ∈ w'.visited, q ∈ w.visited
      ∨ scope.Followed w' (fun p f => p = (a, b) ∧ f = d) q)
    (fun w es w' => ∀ q ∈ w'.visited, q ∈ w.visited
      ∨ scope.Followed w' (fun p f => .asked p.1 p.2 f ∈ es) q) where
  done w q h := .inl h
  asked {w a b d w₁ es w'} _ kept first rest q h := by
    rcases rest q h with before | followed
    · refine (first q before).imp_right fun followed => followed.mono kept.grows ?_
      rintro p f ⟨rfl, rfl⟩
      exact List.mem_cons_self
    · exact .inr (followed.mono (.refl w') fun mem => List.mem_cons_of_mem _ mem)
  reported {w c es w'} _ rest q h :=
    (rest q h).imp_right fun followed =>
      followed.mono (.refl w') fun mem => List.mem_cons_of_mem _ mem
  again _ q h := .inl h
  fresh {w a b es d w'} _ look kept events q h := by
    rcases events q h with before | followed
    · rcases List.mem_cons.mp before with rfl | before
      · -- the pair of the look itself
        cases direct : d.isDirect with
        | true => exact .inr (.answered ⟨rfl, rfl⟩ direct .refl)
        | false =>
            obtain ⟨alike, all⟩ := look.settled direct
            refine .inr (.clean alike fun passes => ?_)
            obtain ⟨f, mem⟩ := all passes
            exact kept.asked mem
      · exact .inl before
    · refine .inr ?_
      cases followed with
      | clean alike all => exact .clean alike all
      | letGo mem letGo =>
          obtain ⟨use, part⟩ := look.asked mem
          exact .letGo ⟨rfl, rfl⟩ (letGo.of_part part)
      | @answered p f mem direct leads =>
          rcases look.direct_part ⟨f, mem, direct⟩ with ⟨answer, passes⟩ | ⟨use, other, part⟩
          · exact .answered ⟨rfl, rfl⟩ answer (.head passes leads)
          · exact .letGo ⟨rfl, rfl⟩ ⟨use, (a, b), p, other, .refl, part, leads⟩

/-- Where a comparison does not answer direct although the pair leads to one that differs by
itself, the walk has met the way to it before, or it has let it go. -/
theorem met_of_not_direct {a b : String} (leads : scope.Leads (a, b) r)
    (differs : scope.DiffersHere r)
    (silent : ((scope.compareIds reach a b).run w).1.isDirect = false) :
    (∃ q ∈ w.visited, scope.Leads q r) ∨ scope.LetGo (a, b) r := by
  have held := (scope.follows reach).compareIds w a b
  -- from the noted pair on, each pair of the way hands the note on to the next one
  have along {p : String × String} (way : scope.Leads p r)
      (noted : p ∈ ((scope.compareIds reach a b).run w).2.visited) :
      (∃ q ∈ w.visited, scope.Leads q r) ∨ scope.LetGo (a, b) r := by
    induction way using Relation.ReflTransGen.head_induction_on with
    | refl =>
        rcases held.holds _ noted with before | followed
        · exact .inl ⟨_, before, .refl⟩
        · cases followed with
          | clean alike => exact absurd differs alike
          | letGo mem letGo => exact .inr (mem.1 ▸ letGo)
          | answered mem direct =>
              rw [mem.2, silent] at direct
              cases direct
    | @head p n step rest ih =>
        rcases held.holds _ noted with before | followed
        · exact .inl ⟨_, before, .head step rest⟩
        · cases followed with
          | clean _ all => exact ih (all step)
          | letGo mem letGo => exact .inr ((mem.1 ▸ letGo).leads (.head step rest))
          | answered mem direct =>
              rw [mem.2, silent] at direct
              cases direct
  exact along leads held.noted

/-! ## The fields of the first record

A look that reports a record compares its fields first of all, from a walk that has noted the pair
of records and nothing else. -/

section First

variable {a b : String} {f : Finding} {c : RecordChange} {es : List Event} {d : Difference}

/-- What is known of a look that reports a record: its fields are compared first of all. -/
structure Listed (scope : Scope) (a b : String) (c : RecordChange) (v : Answers)
    (r : FieldsResult) (es : List Event) : Prop where
  resolves : scope.Resolves a b c.old c.new
  old : c.old.shape = .record c.oldLayout
  new : c.new.shape = .record c.newLayout
  key : comparable c.old c.new c.oldLayout c.newLayout
  fields : FieldsRun c.oldLayout.fields c.newLayout.fields v es r
  listed : c.fieldsChanged = r.changed

theorem Looks.listed_of_reported (look : scope.Looks a b es d)
    (h : .reported (.record c) ∈ es) :
    ∃ v r fes, scope.Listed a b c v r fes ∧ fes <+: es := by
  generalize same : Change.record c = ch at h
  cases look.reporter h with
  | enum => cases same
  | record resolves hs ht key run =>
      obtain ⟨v, r, agree, fes, bes, fields, -, -, rfl, first, -⟩ := run.reported h
      cases same
      exact ⟨v, r, fes, ⟨resolves, hs, ht, key, fields, rfl⟩, first⟩

theorem Listed.not_directlyDiffers {v : Answers} {r : FieldsResult}
    (h : scope.Listed a b c v r es) : ¬ scope.DirectlyDiffers (a, b) := by
  intro differs
  cases differs with
  | here differs =>
      exact TypeDecl.not_differs_of_record h.old h.new h.key (h.resolves.differsHere_iff.mp differs)
  | through passes =>
      exact TypeDecl.not_passedOn h.old rfl nofun (h.resolves.parts_iff.mp passes)

/-- The finding about the records that a comparison starts from is the report of the look at
them. -/
theorem listed_of_finding (old : scope.old.type? a = some c.old)
    (new : scope.new.type? b = some c.new)
    (found : f ∈ ((scope.compareIds reach a b).run .start).2.findings)
    (change : f.change = .record c) :
    ∃ v r es w, scope.Listed a b c v r es ∧ Trace (scope.compareIds reach) reach
      (Walk.start.enter (a, b) (scope.old.typeName a)) es w := by
  obtain ⟨es, w, look, trace, left⟩ :=
    @compareIds_trace scope reach a b .start List.not_mem_nil
  have reported : .reported (.record c) ∈ es := by
    rw [left] at found
    obtain ⟨events, -⟩ := (scope.notes reach).of_trace trace
    rcases events f found with none | noted | reported
    · exact absurd none List.not_mem_nil
    · obtain ⟨-, fresh, -⟩ := noted c.old c.new (by rw [change]; rfl)
      rw [Catalog.key_of_find? old, Catalog.key_of_find? new] at fresh
      exact absurd List.mem_cons_self fresh
    · rw [change] at reported
      exact reported
  obtain ⟨v, r, fes, listed, rest, rfl⟩ := look.listed_of_reported reported
  obtain ⟨w₁, first, -⟩ := trace.of_append
  exact ⟨v, r, fes, w₁, listed, first⟩

end First

end Scope

/-! ## Fields by name -/

section Fields

variable {olds news : List Field} {v : Answers} {r : FieldsResult} {es : List Event}

theorem namesakes_of_name {p q : Field} (oldNames : DistinctNames olds)
    (newNames : DistinctNames news) (hp : p ∈ olds) (hq : q ∈ news) (named : p.name ≠ "")
    (name : q.name = p.name) : ∃ x y : Located,
      (x, y) ∈ (namedFields olds).common (namedFields news) ∧ x.1 = p ∧ y.1 = q := by
  have old := find?_namedFields olds named
  have new := find?_namedFields news named
  rw [oldNames.fieldOf?_eq hp named] at old
  rw [← name, newNames.fieldOf?_eq hq (name ▸ named)] at new
  obtain ⟨x, hx, rfl⟩ := Option.map_eq_some_iff.mp old
  obtain ⟨y, hy, rfl⟩ := Option.map_eq_some_iff.mp new
  refine ⟨x, y, Catalog.mem_common.mpr ⟨Catalog.mem_of_find? hx, ?_⟩, rfl, rfl⟩
  rw [Catalog.key_of_find? hx, ← name]
  exact hy

theorem FieldsRun.mem_changed_iff (run : FieldsRun olds news v es r) {x y : Located}
    (common : (x, y) ∈ (namedFields olds).common (namedFields news)) :
    (x.1, y.1) ∈ r.changed ↔ v.differs (x, y) = true := by
  rw [run.changed]
  constructor
  · intro listed
    obtain ⟨⟨x', y'⟩, kept, same⟩ := List.mem_map.mp listed
    obtain ⟨common', differs⟩ := List.mem_filter.mp kept
    obtain ⟨hx, hy⟩ := Catalog.mem_common.mp common
    obtain ⟨hx', hy'⟩ := Catalog.mem_common.mp common'
    have name : x'.name = x.name := congrArg Field.name (Prod.mk.inj same).1
    cases Catalog.eq_of_key_eq hx' hx name
    cases hy'.symm.trans hy
    exact differs
  · intro differs
    exact List.mem_map_of_mem (List.mem_filter.mpr ⟨common, differs⟩)

theorem Answers.differs_iff {p q : Located} : v.differs (p, q) = true ↔ p.1.offset ≠ q.1.offset
    ∨ p.1.access.downgradedTo q.1.access = true ∨ (v p q).isDirect = true := by
  simp [Answers.differs, Field.differs, or_assoc]

end Fields

/-! ## What is listed

The answer for namesakes is given in a state that has noted the records, and what lies below the
fields that were compared before. -/

namespace Scope

variable {scope : Scope} {reach : Reach} {a b : String} {c : RecordChange} {v : Answers}
  {r : FieldsResult} {es : List Event} {w : Walk}

/-- All that makes two types differ directly was met below fields that are compared before those
of this name, or is let go in the comparison of the types themselves. -/
def Masked (scope : Scope) (olds news : List Field) (name : String) (p : String × String) : Prop :=
  ∀ q, scope.Leads p q → scope.DiffersHere q →
    (∃ x y, JudgedBefore olds news name x y ∧ scope.Below (x.1.typeId, y.1.typeId) q)
      ∨ scope.LetGo p q

theorem Listed.answer (h : scope.Listed a b c v r es) (trace : Trace (scope.compareIds reach) reach
      (Walk.start.enter (a, b) (scope.old.typeName a)) es w) {x y : Located}
    (common : (x, y) ∈ (namedFields c.oldLayout.fields).common (namedFields c.newLayout.fields)) :
    ∃ w, v x y = ((scope.compareIds reach x.1.typeId y.1.typeId).run w).1
      ∧ (∀ q ∈ w.visited, q = (a, b) ∨ ∃ x' y',
        JudgedBefore c.oldLayout.fields c.newLayout.fields x.name x' y'
          ∧ scope.Below (x'.1.typeId, y'.1.typeId) q)
      ∧ ∀ x' y', JudgedBefore c.oldLayout.fields c.newLayout.fields x.name x' y' →
        (x'.1.typeId, y'.1.typeId) ∈ w.visited := by
  obtain ⟨before, after, rfl, only, all⟩ := h.fields.inTurn x y common
  obtain ⟨w₁, first, rest⟩ := trace.of_append
  refine ⟨w₁, rest.answer, ?_, fun x' y' earlier => first.kept.asked (all x' y' earlier)⟩
  intro q noted
  rcases ((scope.staysBelow reach).of_trace first).1 q noted with start | ⟨i, j, d, mem, below⟩
  · exact .inl (List.mem_singleton.mp start)
  · obtain ⟨x', y', earlier, rfl, rfl⟩ := only i j d mem
    exact .inr ⟨x', y', earlier, below⟩

theorem Listed.masked (h : scope.Listed a b c v r es) (trace : Trace (scope.compareIds reach) reach
      (Walk.start.enter (a, b) (scope.old.typeName a)) es w) {x y : Located}
    (common : (x, y) ∈ (namedFields c.oldLayout.fields).common (namedFields c.newLayout.fields))
    (silent : (v x y).isDirect = false) :
    scope.Masked c.oldLayout.fields c.newLayout.fields x.name (x.1.typeId, y.1.typeId) := by
  obtain ⟨w₁, answer, noted, -⟩ := h.answer trace common
  intro q leads differs
  rw [answer] at silent
  rcases met_of_not_direct leads differs silent with ⟨m, met, leads'⟩ | letGo
  · rcases noted m met with rfl | ⟨x', y', earlier, below⟩
    · exact absurd (directlyDiffers_iff.mpr ⟨q, leads', differs⟩) h.not_directlyDiffers
    · exact .inl ⟨x', y', earlier, below.trans (Below.of_leads leads')⟩
  · exact .inr letGo

theorem Listed.same (h : scope.Listed a b c v r es) (trace : Trace (scope.compareIds reach) reach
      (Walk.start.enter (a, b) (scope.old.typeName a)) es w) {x y x' y' : Located}
    (common : (x, y) ∈ (namedFields c.oldLayout.fields).common (namedFields c.newLayout.fields))
    (earlier : JudgedBefore c.oldLayout.fields c.newLayout.fields x.name x' y')
    (old : x'.1.typeId = x.1.typeId) (new : y'.1.typeId = y.1.typeId) : v x y = .same := by
  obtain ⟨w₁, answer, -, noted⟩ := h.answer trace common
  have met := noted x' y' earlier
  rw [old, new] at met
  have run : (scope.compareIds reach x.1.typeId y.1.typeId).run w₁ = (.same, w₁) :=
    Invariant.compareWithin_run_noted met
  rw [answer, run]

end Scope

/-- Of the fields that two records share by name, the finding about the records lists those that
cannot stand for each other, and no others.  It leaves a field out only where nothing but the
types differ and their difference is masked, and it always leaves such a field out where another
field that is compared before has the same two types. -/
theorem fieldsChanged_of_first (scope : Scope) (reach : Reach) {a b : String} {f : Finding}
    {c : RecordChange} {p q : Field} (old : scope.old.type? a = some c.old)
    (new : scope.new.type? b = some c.new)
    (found : f ∈ ((scope.compareIds reach a b).run .start).2.findings)
    (change : f.change = .record c) (oldNames : DistinctNames c.oldLayout.fields)
    (newNames : DistinctNames c.newLayout.fields) (hp : p ∈ c.oldLayout.fields)
    (hq : q ∈ c.newLayout.fields) (named : p.name ≠ "") (name : q.name = p.name) :
    ((p, q) ∈ c.fieldsChanged → scope.FieldsDiffer p q)
      ∧ (scope.FieldsDiffer p q → (p, q) ∈ c.fieldsChanged
        ∨ p.offset = q.offset ∧ p.access.downgradedTo q.access = false
          ∧ scope.Masked c.oldLayout.fields c.newLayout.fields p.name (p.typeId, q.typeId))
      ∧ ∀ x y, JudgedBefore c.oldLayout.fields c.newLayout.fields p.name x y →
        x.1.typeId = p.typeId → y.1.typeId = q.typeId → ((p, q) ∈ c.fieldsChanged ↔
          p.offset ≠ q.offset ∨ p.access.downgradedTo q.access = true) := by
  obtain ⟨v, r, es, w, listed, trace⟩ := Scope.listed_of_finding old new found change
  obtain ⟨x, y, common, rfl, rfl⟩ := namesakes_of_name oldNames newNames hp hq named name
  rw [listed.listed, listed.fields.mem_changed_iff common]
  refine ⟨?_, ?_, ?_⟩
  · obtain ⟨direct, -⟩ := (scope.bounds_differ.invariant reach).of_trace trace
    exact listed.fields.differ (direct fun _ => trivial).1 (List.Subset.refl _) (.namesakes common)
  · intro differ
    cases answer : v.differs (x, y) with
    | true => exact .inl rfl
    | false =>
        rw [Bool.eq_false_iff, ne_eq, Answers.differs_iff, not_or, not_or, not_not,
          Bool.not_eq_true, Bool.not_eq_true] at answer
        obtain ⟨offset, access, silent⟩ := answer
        exact .inr ⟨offset, access, listed.masked trace common silent⟩
  · intro x' y' earlier oldType newType
    rw [Answers.differs_iff, listed.same trace common earlier oldType newType]
    simp

/-! ## Two fields of one type -/

/-- Two fields of the given type. -/
def twoFields (typeId : String) : RecordLayout :=
  ⟨[⟨"x", typeId, 0, .pub⟩, ⟨"y", typeId, 8, .pub⟩], [], [], .structRecord, false, [], .pub⟩

def twoFieldsDecl (typeId : String) : TypeDecl :=
  ⟨"r", "r", "", "r", "", 16, 8, .record (twoFields typeId)⟩

/-- A record of two fields of the given type, `int` or `long`. -/
def twoOf (typeId : String) : Interface :=
  { Interface.empty with
    types := .ofList [
      ⟨"i", "int", "", "int", "", 4, 4, .builtin ⟨false, true⟩⟩,
      ⟨"l", "long", "", "long", "", 8, 8, .builtin ⟨false, true⟩⟩,
      twoFieldsDecl typeId] }

/-- Both fields become a `long`. -/
def bothToLong : Scope := ⟨twoOf "i", twoOf "l", .plain⟩

/-- The change of the record, with the first field only. -/
def firstToLong : RecordChange :=
  { old := twoFieldsDecl "i", new := twoFieldsDecl "l"
    oldLayout := twoFields "i", newLayout := twoFields "l"
    room := none, access := none, vtableChanged := false, basesChanged := false
    fieldsChanged := [(⟨"x", "i", 0, .pub⟩, ⟨"x", "l", 0, .pub⟩)]
    fieldsRemoved := [], fieldsAdded := [] }

theorem firstToLong_found : ⟨.referenced, ["r"], .record firstToLong⟩
    ∈ ((bothToLong.compareIds .referenced "r" "r").run .start).2.findings := by
  decide

/-- The second field differs as the first one does, and it is not listed. -/
theorem second_field_unlisted :
    ⟨.referenced, ["r"], .record firstToLong⟩
        ∈ ((bothToLong.compareIds .referenced "r" "r").run .start).2.findings
      ∧ bothToLong.FieldsDiffer ⟨"y", "i", 8, .pub⟩ ⟨"y", "l", 8, .pub⟩
      ∧ (⟨"y", "i", 8, .pub⟩, ⟨"y", "l", 8, .pub⟩) ∉ firstToLong.fieldsChanged := by
  refine ⟨firstToLong_found, .inr (.inr (.here (.types ⟨rfl, rfl, rfl⟩ ?_))), by decide⟩
  exact .builtin rfl rfl (.inl (by decide))

/-- It is left out because the first field, which is compared before, has its types. -/
theorem second_field_masked :
    bothToLong.old.type? "r" = some firstToLong.old
      ∧ bothToLong.new.type? "r" = some firstToLong.new
      ∧ DistinctNames firstToLong.oldLayout.fields ∧ DistinctNames firstToLong.newLayout.fields
      ∧ ((⟨"y", "i", 8, .pub⟩, ⟨"y", "l", 8, .pub⟩) ∈ firstToLong.fieldsChanged ↔
        (8 : UInt64) ≠ 8 ∨ Access.pub.downgradedTo .pub = true) := by
  have oldNames : DistinctNames firstToLong.oldLayout.fields := by
    simp [DistinctNames, firstToLong, twoFields]
  have newNames : DistinctNames firstToLong.newLayout.fields := by
    simp [DistinctNames, firstToLong, twoFields]
  have earlier : JudgedBefore firstToLong.oldLayout.fields firstToLong.newLayout.fields "y"
      (⟨"x", "i", 0, .pub⟩, 0) (⟨"x", "l", 0, .pub⟩, 0) :=
    ⟨_, .namesakes (by decide), fun _ => by decide⟩
  obtain ⟨-, -, same⟩ := fieldsChanged_of_first bothToLong .referenced rfl rfl firstToLong_found rfl
    oldNames newNames (p := ⟨"y", "i", 8, .pub⟩) (q := ⟨"y", "l", 8, .pub⟩) (by decide) (by decide)
    (by decide) rfl
  exact ⟨rfl, rfl, oldNames, newNames, same _ _ earlier rfl rfl⟩

end AbiCompat
