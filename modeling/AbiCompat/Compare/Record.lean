/-
# Comparing records

A record is compared member by member, and a change of its own layout is a finding.  To whoever
refers to it, it never differs more than `nested`.

Fields are matched by name.  A field whose name the other side lacks is held against the first
field at its offset there, so that a new name for a field is not a change.  The answers for pairs
of fields are noted in a docket, so that the two sides come to the same judgement on a pair.

Bases are compared in order up to the first pair that differs; virtual tables slot by slot;
template arguments last, after the record has been reported or not.
-/
import AbiCompat.Compare.Walk

namespace AbiCompat

/-- A field and its place among the fields of its record. -/
abbrev Located := Field × Nat

/-- The fields of a record with their places. -/
def located (fields : List Field) : List Located := fields.zipIdx

/-- The key of a located field. -/
def Located.name (p : Located) : String := p.1.name

/-- The fields that have a name, by name; of several with one name the last counts. -/
def namedFields (fields : List Field) : Catalog Located.name :=
  .ofList ((located fields).filter (fun p => p.1.name != ""))

def firstAt? (fields : List Field) (offset : UInt64) : Option Located :=
  (located fields).find? (fun p => p.1.offset == offset)

/-- The fields without a namesake on the other side.  Fields without a name have none. -/
def oneSided (fields others : List Field) : List Located :=
  (located fields).filter (fun p => p.1.name == "" || !(namedFields others).contains p.1.name)

/-- The answer for one pair of fields. -/
structure Judgement where
  /-- Whether the two are not interchangeable. -/
  differs : Bool
  /-- How the types differ. -/
  difference : Difference

/-- The judgements of one comparison of records, by the places of the fields. -/
abbrev Docket := List ((Nat × Nat) × Judgement)

/-- A step of the comparison of two field lists. -/
abbrev Judging := StateT Docket Walking

/-- Judges a pair of fields.  The answer for a pair that comes up again is taken from
the docket, because the walk itself would call its types the same. -/
def judge (visit : Visit) (p q : Located) : Judging Judgement := do
  match (← get).lookup (p.2, q.2) with
  | some j => return j
  | none =>
    let d ← visit p.1.typeId q.1.typeId
    let j : Judgement :=
      ⟨p.1.offset != q.1.offset || p.1.access.downgradedTo q.1.access || d.isDirect, d⟩
    modify (((p.2, q.2), j) :: ·)
    return j

/-- Splits one-sided fields: those that a field at the same offset stands in for are
dropped and their differences are combined; the others are kept. -/
def reconcile (judgeAt : Located → Option (Judging Judgement)) :
    List Located → Judging (List Located × Difference)
  | [] => return ([], .same)
  | p :: ps =>
    match judgeAt p with
    | none => do
      let (kept, d) ← reconcile judgeAt ps
      return (p :: kept, d)
    | some judged => do
      let j ← judged
      let (kept, d) ← reconcile judgeAt ps
      return if j.differs then (p :: kept, d) else (kept, j.difference.combine d)

/-- Splits pairs of namesakes into those that are not interchangeable and the combined
difference of the others. -/
def compareNamed (visit : Visit) :
    List (Located × Located) → Judging (List (Field × Field) × Difference)
  | [] => return ([], .same)
  | (p, q) :: rest => do
    let j ← judge visit p q
    let (changed, d) ← compareNamed visit rest
    return if j.differs then ((p.1, q.1) :: changed, d) else (changed, j.difference.combine d)

/-- What the comparison of two field lists found. -/
structure FieldsResult where
  difference : Difference
  changed : List (Field × Field)
  removed : List Field
  added : List Field

/-- Compares two field lists: first the fields that are gone, then those that are new,
then the namesakes in the order of their names. -/
def judgeFields (visit : Visit) (olds news : List Field) : Judging FieldsResult := do
  let (removed, d) ← reconcile
    (fun p => (firstAt? news p.1.offset).map fun q => judge visit p q) (oneSided olds news)
  let (added, e) ← reconcile
    (fun q => (firstAt? olds q.1.offset).map fun p => judge visit p q) (oneSided news olds)
  let (changed, f) ← compareNamed visit ((namedFields olds).common (namedFields news))
  let inside := (d.combine e).combine f
  return {
    difference := if changed.isEmpty && removed.isEmpty then inside else inside.combine .direct
    changed
    removed := removed.map (·.1)
    added := added.map (·.1) }

/-- Compares two field lists with an empty docket. -/
def compareFields (visit : Visit) (olds news : List Field) : Walking FieldsResult := do
  let (result, _) ← (judgeFields visit olds news).run []
  return result

/-- Compares the types and accesses of bases, up to the first pair that differs. -/
def basesAgreeFrom (visit : Visit) : List Base → List Base → Walking Bool
  | a :: as, b :: bs => do
    let d ← visit a.typeId b.typeId
    if d.isDirect || a.access != b.access then return false
    else basesAgreeFrom visit as bs
  | _, _ => return true

/-- Whether two lists of bases are the same to a caller. -/
def basesAgree (visit : Visit) (as bs : List Base) : Walking Bool :=
  if as.length = bs.length then basesAgreeFrom visit as bs else return false

/-- The change of room between two types. -/
def roomChange? (s t : TypeDecl) : Option RoomChange :=
  if s.sameRoom t then none else some ⟨s.size, t.size, s.alignment, t.alignment⟩

/-- The change of access between two records. -/
def accessChange? (a b : RecordLayout) : Option (Access × Access) :=
  if a.access = b.access then none else some (a.access, b.access)

/-- Compares two records: the layout first, which may be a finding, then the template
arguments. -/
def compareRecords (visit : Visit) (reach : Reach) (s t : TypeDecl) (a b : RecordLayout) :
    Walking Difference := do
  if !a.isAnonymous && !b.isAnonymous && s.linkKey != t.linkKey then return .direct
  else
    let vtableChanged := !vtablesAgree a.vtable b.vtable
    let fields ← compareFields visit a.fields b.fields
    let basesChanged := !(← basesAgree visit a.bases b.bases)
    let isBroken := a.access.downgradedTo b.access || !s.sameRoom t || vtableChanged
      || fields.difference.isDirect || basesChanged
    if isBroken then
      Walking.report reach <| .record
        { old := s, new := t, oldLayout := a, newLayout := b
          room := roomChange? s t
          access := accessChange? a b
          vtableChanged, basesChanged
          fieldsChanged := fields.changed
          fieldsRemoved := fields.removed
          fieldsAdded := fields.added }
    let args ←
      if a.templateArgs.length = b.templateArgs.length then
        visitPairs visit a.templateArgs b.templateArgs
      else pure .direct
    return if isBroken || fields.difference.isAny || args.isAny then .nested else .same

end AbiCompat
