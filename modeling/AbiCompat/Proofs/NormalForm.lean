/-
# The normal form of a dump

Saving what was loaded does not give the dump back, since there are many ways to write one.  It
gives its normal form: every object and every tag is written in one way, members that are missing
are filled in or left out, and each list has one copy of every entry, in the order of their
keys.  Nothing else changes, so that an accepted dump loses nothing on its way through an
interface.

## What is proved

For every text that is loaded, the value of what is saved is `normalForm` of the value of the
text.  `normalForm` works on values alone; it does not know about interfaces.  No list loses an
entry by it (`Orders`).  And two dumps are dumps of one interface exactly if their normal forms are
equal (`normalForm_eq_iff`).

## How

The normal form is taken in two steps.  The first one rewrites every entry by its schema, as is
shown for all schemas in `Json/Normal`; the second one puts lists in order, and gives ids to types
that lack them.  Each entry is written as it was read, up to the id of a type (`settles`), and what
is written is in order since the collections of an interface are.  Two entries of an accepted list
that share their key are equal: otherwise the dump would have been refused.

## What is not

Texts that are refused have no normal form here, although the function is defined on them.  And the
text of what is saved is more than its value: it is settled by the writer.
-/
import AbiCompat.Proofs.Catalog
import AbiCompat.Proofs.Json.Normal
import AbiCompat.Proofs.Population

namespace AbiCompat

namespace Dump

/-! ## The normal form -/

/-- The members that a dump leaves out where they have their default. -/
def leftOut : List String := ["access", "record_kind", "binding", "is_pure", "self_type"]

/-- The members with one more behind the one with a name. -/
def insertAfter (name : String) (m : String × Json) : List (String × Json) → List (String × Json)
  | [] => [m]
  | n :: ms => if n.1 = name then n :: m :: ms else n :: insertAfter name m ms

/-- The entry of a type with its id, which is the linker set key if it is not given. -/
def withId : Json → Json
  | .object ms =>
    match Json.named "self_type" ms, Json.named "linker_set_key" ms with
    | [], key :: _ => .object (insertAfter "referenced_type" ("self_type", key) ms)
    | _, _ => .object ms
  | j => j

/-- The text of a member of an entry. -/
def memberText (name : String) : Json → String
  | .object ms =>
    match Json.named name ms with
    | .string s :: _ => s
    | _ => ""
  | _ => ""

namespace Form

/-- Where the entries of the list belong. -/
def collection : Form → Collection
  | function => .functions
  | global => .globals
  | functionSymbol => .functionSymbols
  | objectSymbol => .objectSymbols
  | _ => .types

/-- The member that holds the key of an entry. -/
def keyName (form : Form) : String :=
  match form.collection with
  | .types => "self_type"
  | .functions | .globals => "linker_set_key"
  | .functionSymbols | .objectSymbols => "name"

def settled (form : Form) (entry : Json) : Json :=
  if form.collection = .types then withId entry else entry

/-- One copy of every entry, in the order of the keys. -/
def inOrder (form : Form) (entries : List Json) : List Json :=
  (Catalog.ofList (entries.map form.settled) : Catalog (memberText form.keyName)).items

def named? (name : String) : Option Form := all.find? fun form => form.listName == name

end Form

/-- A list of the dump in order. -/
def listInOrder : String × Json → String × Json
  | (name, .array entries) =>
    match Form.named? name with
    | some form => (name, .array (form.inOrder entries))
    | none => (name, .array entries)
  | m => m

/-- The lists of a dump, each entry in the one way in which it is written. -/
def rewritten (j : Json) : Json := schema.normal leftOut j

/-- The normal form of a dump. -/
def normalForm (j : Json) : Json :=
  match rewritten j with
  | .object lists => .object (lists.map listInOrder)
  | j => j

end Dump

/-! ## Members by name -/

theorem Fields.mem_names_of_mem_toMembers {fields : Fields} {row : fields.Row}
    {m : String × Json} (mem : m ∈ fields.toMembers row) : m.1 ∈ fields.names := by
  cases fields with
  | done => exact absurd mem List.not_mem_nil
  | field presence name schema fields =>
      obtain ⟨x, row⟩ := row
      rw [Fields.toMembers] at mem
      split at mem
      · exact List.mem_cons_of_mem _ (mem_names_of_mem_toMembers mem)
      · rcases List.mem_cons.mp mem with rfl | mem
        · exact List.mem_cons_self
        · exact List.mem_cons_of_mem _ (mem_names_of_mem_toMembers mem)

theorem Fields.named_toMembers {fields : Fields} {name : String} (unlike : name ∉ fields.names)
    (row : fields.Row) : Json.named name (fields.toMembers row) = [] := by
  have none : (fields.toMembers row).filter (fun m => m.1 == name) = [] := by
    refine List.filter_eq_nil_iff.mpr fun m mem same => unlike ?_
    rw [← beq_iff_eq.mp same]
    exact mem_names_of_mem_toMembers mem
  rw [Json.named, none, List.map_nil]

namespace Dump

/-! ## Entries of types -/

section Types

/-- The fields that the entries of all types begin with. -/
def typeFields (presence : Presence) (rest : Fields) : Fields :=
  .required "linker_set_key" .text <|
  .optional "source_file" .text <|
  .required "name" .text <|
  .required "size" .uint64 <|
  .required "alignment" .uint32 <|
  .field presence "referenced_type" .text <|
  .elided "self_type" (.option .text) rest

variable {presence : Presence} {rest : Fields}

/-- The row of a type whose id is given. -/
def typeRow (presence : Presence) (rest : Fields) (linkKey sourceFile name : String)
    (size : UInt64) (alignment : UInt32) (target : String) (id : Option String) (row : rest.Row) :
    (typeFields presence rest).Row :=
  (linkKey, sourceFile, name, size, alignment, target, id, row)

variable (written : presence ≠ .elided) (fresh : "self_type" ∉ rest.names)
  (linkKey sourceFile name : String) (size : UInt64) (alignment : UInt32) (target : String)
  (row : rest.Row)

include written

theorem toMembers_typeRow (id : Option String) :
    (typeFields presence rest).toMembers
        (typeRow presence rest linkKey sourceFile name size alignment target id row)
      = [("linker_set_key", .string linkKey), ("source_file", .string sourceFile),
          ("name", .string name), ("size", .ofUInt64 size),
          ("alignment", .ofUInt64 alignment.toUInt64), ("referenced_type", .string target)]
        ++ (match id with
          | none => []
          | some id => [("self_type", .string id)])
        ++ rest.toMembers row := by
  have target' : ¬ (presence = .elided ∧ Schema.text.isInitial target = true) :=
    fun h => written h.1
  cases id with
  | none =>
      simp only [typeFields, typeRow, Fields.toMembers, if_neg target']
      rfl
  | some id =>
      simp only [typeFields, typeRow, Fields.toMembers, if_neg target']
      rfl

include fresh

theorem withId_typeRow (id : Option String) :
    withId (.object ((typeFields presence rest).toMembers
        (typeRow presence rest linkKey sourceFile name size alignment target id row)))
      = .object ((typeFields presence rest).toMembers (typeRow presence rest linkKey sourceFile
          name size alignment target (some (id.getD linkKey)) row)) := by
  have others := Fields.named_toMembers fresh row
  rw [toMembers_typeRow written, toMembers_typeRow written]
  cases id with
  | none =>
      have missing : Json.named "self_type" ([("linker_set_key", Json.string linkKey),
          ("source_file", .string sourceFile), ("name", .string name), ("size", .ofUInt64 size),
          ("alignment", .ofUInt64 alignment.toUInt64), ("referenced_type", .string target)]
          ++ [] ++ rest.toMembers row) = [] := others
      rw [withId, missing]
      rfl
  | some id => rfl

end Types

/-! ## Parts of entries

Every part of an entry is written as it was read. -/

theorem access_place_ofPlace : ∀ p : Fin 3, Access.place (Access.ofPlace p) = p := by decide

theorem recordKind_place_ofPlace : ∀ p : Fin 3, RecordKind.place (RecordKind.ofPlace p) = p := by
  decide

theorem slotKind_place_ofPlace : ∀ p : Fin 8, SlotKind.place (SlotKind.ofPlace p) = p := by decide

theorem binding_place_ofPlace : ∀ p : Fin 2, Binding.place (Binding.ofPlace p) = p := by decide

open Function (LeftInverse)

theorem fieldRow_fieldOf : LeftInverse fieldRow fieldOf := fun (name, typeId, offset, access, ()) =>
  congrArg (fun a => (name, typeId, offset, a, ())) (access_place_ofPlace access)

theorem baseRow_baseOf : LeftInverse baseRow baseOf := fun (typeId, isVirtual, access, ()) =>
  congrArg (fun a => (typeId, isVirtual, a, ())) (access_place_ofPlace access)

theorem slotRow_slotOf : LeftInverse slotRow slotOf := fun (kind, value, name, isPure, ()) =>
  congrArg (fun k => (k, value, name, isPure, ())) (slotKind_place_ofPlace kind)

theorem enumeratorRow_enumeratorOf : LeftInverse enumeratorRow enumeratorOf := fun _ => rfl

theorem paramRow_paramOf : LeftInverse paramRow paramOf := fun _ => rfl

/-! ## Entries

An entry is written as it was read, up to the id of a type, and with the key of its entity. -/

namespace Form

/-- The fields of a type that not all types have. -/
def ownFields (form : Form) : Fields :=
  match form.schema with
  | .object _ _ (.field _ _ _ (.field _ _ _ (.field _ _ _ (.field _ _ _ (.field _ _ _
      (.field _ _ _ (.field _ _ _ rest))))))) => rest
  | _ => .done

/-- An entry is written as it was read, up to the id of a type, and with the key of its entity. -/
def Settles (form : Form) (row : form.schema.El) : Prop :=
  ∃ row', form.row? (form.entity row) = some row'
    ∧ form.schema.toJson row' = form.settled (form.schema.toJson row)
    ∧ memberText form.keyName (form.schema.toJson row') = (form.entity row).key

/-- The entry of a type is written with the id that it has. -/
theorem settles_type (form : Form) (presence : Presence) (own : form.ownFields.Row)
    {linkKey sourceFile name target : String} {size : UInt64} {alignment : UInt32}
    {id : Option String} {row row' : form.schema.El} (isType : form.collection = .types)
    (written : presence ≠ .elided) (fresh : "self_type" ∉ form.ownFields.names)
    (before : form.schema.toJson row = .object ((typeFields presence form.ownFields).toMembers
      (typeRow presence form.ownFields linkKey sourceFile name size alignment target id own)))
    (after : form.schema.toJson row' = .object ((typeFields presence form.ownFields).toMembers
      (typeRow presence form.ownFields linkKey sourceFile name size alignment target
        (some (id.getD linkKey)) own)))
    (back : form.row? (form.entity row) = some row')
    (key : (form.entity row).key = id.getD linkKey) : form.Settles row := by
  refine ⟨row', back, ?_, ?_⟩
  · rw [settled, if_pos isType, before, withId_typeRow written fresh, after]
  · rw [key, after, toMembers_typeRow written, keyName, isType]
    rfl

theorem settles_record : ∀ row, record.Settles row
  | (linkKey, sourceFile, name, size, alignment, target, id, (fields : List fieldSchema.El),
      (bases : List baseSchema.El), (vtable : List slotSchema.El), (kind : Fin 3), isAnonymous,
      templateArgs, (access : Fin 3), ()) => by
      have own : (List.map fieldRow (List.map fieldOf fields),
          List.map baseRow (List.map baseOf bases), List.map slotRow (List.map slotOf vtable),
          (RecordKind.ofPlace kind).place, isAnonymous, templateArgs,
          (Access.ofPlace access).place, ())
          = (fields, bases, vtable, kind, isAnonymous, templateArgs, access, ()) := by
        rw [fieldRow_fieldOf.list_map, baseRow_baseOf.list_map, slotRow_slotOf.list_map,
          recordKind_place_ofPlace, access_place_ofPlace]
      exact settles_type record .optional (fields, bases, vtable, kind, isAnonymous, templateArgs,
        access, ()) rfl (by decide) (by decide) rfl rfl (congrArg (fun own => some (linkKey,
          sourceFile, name, size, alignment, target, some (id.getD linkKey), own)) own) rfl

theorem settles_enum : ∀ row, enum.Settles row
  | (linkKey, sourceFile, name, size, alignment, target, id, underlying,
      (enumerators : List enumeratorSchema.El), (access : Fin 3), ()) => by
      have own : (underlying, List.map enumeratorRow (List.map enumeratorOf enumerators),
          (Access.ofPlace access).place, ()) = (underlying, enumerators, access, ()) := by
        rw [enumeratorRow_enumeratorOf.list_map, access_place_ofPlace]
      exact settles_type enum .optional (underlying, enumerators, access, ()) rfl (by decide)
        (by decide) rfl rfl (congrArg (fun own => some (linkKey, sourceFile, name, size, alignment,
          target, some (id.getD linkKey), own)) own) rfl

theorem settles_functionType : ∀ row, functionType.Settles row
  | (linkKey, sourceFile, name, size, alignment, target, id, returns,
      (params : List paramSchema.El), templateArgs, ()) => by
      have own : (returns, List.map paramRow (List.map paramOf params), templateArgs, ())
          = (returns, params, templateArgs, ()) := by
        rw [paramRow_paramOf.list_map]
      exact settles_type functionType .optional (returns, params, templateArgs, ()) rfl (by decide)
        (by decide) rfl rfl (congrArg (fun own => some (linkKey, sourceFile, name, size, alignment,
          target, some (id.getD linkKey), own)) own) rfl

theorem settles_function : ∀ row, function.Settles row
  | (name, linkKey, sourceFile, returns, (params : List paramSchema.El), templateArgs,
      (access : Fin 3), ()) => by
      have own : (List.map paramRow (List.map paramOf params), templateArgs,
          (Access.ofPlace access).place, ()) = (params, templateArgs, access, ()) := by
        rw [paramRow_paramOf.list_map, access_place_ofPlace]
      exact ⟨_, congrArg (fun own => some (name, linkKey, sourceFile, returns, own)) own, rfl, rfl⟩

theorem settles_global : ∀ row, global.Settles row
  | (name, linkKey, sourceFile, typeId, access, ()) =>
      ⟨_, congrArg (fun a => some (name, linkKey, sourceFile, typeId, a, ()))
        (access_place_ofPlace access), rfl, rfl⟩

theorem settles_symbol : ∀ row, functionSymbol.Settles row ∧ objectSymbol.Settles row
  | (name, (binding : Fin 2), ()) => by
      have own : some (name, (Binding.ofPlace binding).place, ()) = some (name, binding, ()) := by
        rw [binding_place_ofPlace]
      exact ⟨⟨_, own, rfl, rfl⟩, _, own, rfl, rfl⟩

theorem settles : ∀ (form : Form) (row : form.schema.El), form.Settles row
  | record, row => settles_record row
  | enum, row => settles_enum row
  | pointer, _ => settles_type pointer .required () rfl (by decide) (by decide) rfl rfl rfl rfl
  | lvalueReference, _ =>
      settles_type lvalueReference .required () rfl (by decide) (by decide) rfl rfl rfl rfl
  | rvalueReference, _ =>
      settles_type rvalueReference .required () rfl (by decide) (by decide) rfl rfl rfl rfl
  | builtin, (_, _, _, _, _, _, _, own) =>
      settles_type builtin .optional own rfl (by decide) (by decide) rfl rfl rfl rfl
  | qualified, (_, _, _, _, _, _, _, own) =>
      settles_type qualified .required own rfl (by decide) (by decide) rfl rfl rfl rfl
  | array, _ => settles_type array .required () rfl (by decide) (by decide) rfl rfl rfl rfl
  | functionType, row => settles_functionType row
  | function, row => settles_function row
  | global, row => settles_global row
  | functionSymbol, row => (settles_symbol row).1
  | objectSymbol, row => (settles_symbol row).2

/-- The list that an entity belongs in. -/
def ofEntity : Entity → Form
  | .type t =>
    match t.shape with
    | .record _ => record
    | .enum _ => enum
    | .pointer => pointer
    | .lvalueReference => lvalueReference
    | .rvalueReference => rvalueReference
    | .qualified _ => qualified
    | .array => array
    | .builtin _ => builtin
    | .function _ => functionType
  | .function _ => function
  | .global _ => global
  | .functionSymbol _ => functionSymbol
  | .objectSymbol _ => objectSymbol

theorem ofEntity_entity (form : Form) (row : form.schema.El) :
    ofEntity (form.entity row) = form := by
  cases form <;> rfl

theorem collection_entity (form : Form) (row : form.schema.El) :
    (form.entity row).collection = form.collection := by
  cases form <;> rfl

section Rows

variable {form : Form} {e : Entity} {row : form.schema.El}

theorem eq_ofEntity (written : form.row? e = some row) : form = ofEntity e := by
  rw [← entity_of_row? written, ofEntity_entity]

theorem collection_of_row? (written : form.row? e = some row) : e.collection = form.collection := by
  rw [← entity_of_row? written, collection_entity]

theorem memberText_of_row? (written : form.row? e = some row) :
    memberText form.keyName (form.schema.toJson row) = e.key := by
  obtain ⟨row', back, -, key⟩ := form.settles row
  rw [entity_of_row? written] at back key
  rw [written] at back
  cases back
  exact key

end Rows

end Form

/-! ## Lists

The entries that are written for the entities of an interface are those that were read, up to ids,
and they are in the order of their keys. -/

theorem entities_ascending (m : Interface) :
    m.entities.Pairwise fun e f => e.collection = f.collection → e.key < f.key := by
  have part {α : Type} {key : α → String} (c : Catalog key) {wrap : α → Entity}
      (keyed : ∀ x, (wrap x).key = key x) :
      (c.items.map wrap).Pairwise fun e f => e.collection = f.collection → e.key < f.key := by
    rw [List.pairwise_map]
    refine c.ascending.imp fun lt _ => ?_
    rw [keyed, keyed]
    exact lt
  have apart {es fs : List Entity} (differ : ∀ e ∈ es, ∀ f ∈ fs, e.collection ≠ f.collection) :
      ∀ e ∈ es, ∀ f ∈ fs, e.collection = f.collection → e.key < f.key :=
    fun e he f hf same => absurd same (differ e he f hf)
  unfold Interface.entities
  refine List.pairwise_append.mpr ⟨List.pairwise_append.mpr ⟨List.pairwise_append.mpr
    ⟨List.pairwise_append.mpr ⟨part _ fun _ => rfl, part _ fun _ => rfl, apart ?_⟩,
      part _ fun _ => rfl, apart ?_⟩, part _ fun _ => rfl, apart ?_⟩, part _ fun _ => rfl,
        apart ?_⟩
  all_goals
    intro e he f hf
    simp only [List.mem_append, List.mem_map] at he hf
    grind [Entity.collection]

section Lists

variable {m : Interface} {form : Form} {rows : List form.schema.El} {j : Json}

theorem mem_written_iff (same : ∀ e row, form.row? e = some row →
      (e ∈ m.entities ↔ e ∈ rows.map form.entity)) :
    j ∈ (m.entities.filterMap form.row?).map form.schema.toJson
      ↔ j ∈ (rows.map form.schema.toJson).map form.settled := by
  constructor
  · intro mem
    obtain ⟨row, listed, rfl⟩ := List.mem_map.mp mem
    obtain ⟨e, he, written⟩ := List.mem_filterMap.mp listed
    obtain ⟨read, mem, rfl⟩ := List.mem_map.mp ((same e row written).mp he)
    obtain ⟨row', back, settled, -⟩ := form.settles read
    rw [written] at back
    cases back
    exact List.mem_map.mpr ⟨_, List.mem_map_of_mem mem, settled.symm⟩
  · intro mem
    obtain ⟨entry, listed, rfl⟩ := List.mem_map.mp mem
    obtain ⟨read, among, rfl⟩ := List.mem_map.mp listed
    obtain ⟨row', back, settled, -⟩ := form.settles read
    rw [← settled]
    exact List.mem_map_of_mem (List.mem_filterMap.mpr ⟨_,
      (same _ row' back).mpr (List.mem_map_of_mem among), back⟩)

theorem written_ascending (m : Interface) (form : Form) :
    ((m.entities.filterMap form.row?).map form.schema.toJson).Pairwise
      fun x y => memberText form.keyName x < memberText form.keyName y := by
  rw [List.pairwise_map, List.pairwise_filterMap]
  refine (entities_ascending m).imp fun ascends row written row' written' => ?_
  rw [Form.memberText_of_row? written, Form.memberText_of_row? written']
  exact ascends ((Form.collection_of_row? written).trans (Form.collection_of_row? written').symm)

/-- No two entries of an accepted list share their key. -/
theorem eq_of_memberText {x y : Json}
    (hx : x ∈ (m.entities.filterMap form.row?).map form.schema.toJson)
    (hy : y ∈ (m.entities.filterMap form.row?).map form.schema.toJson)
    (same : memberText form.keyName x = memberText form.keyName y) : x = y := by
  let c : Catalog (memberText form.keyName) := ⟨_, written_ascending m form⟩
  exact Catalog.eq_of_key_eq (c := c) hx hy same

/-- A list of entries for what the interface holds is, in order, the list that is written. -/
theorem inOrder_eq (same : ∀ e row, form.row? e = some row →
      (e ∈ m.entities ↔ e ∈ rows.map form.entity)) :
    form.inOrder (rows.map form.schema.toJson)
      = (m.entities.filterMap form.row?).map form.schema.toJson := by
  refine Catalog.eq_of_ascending (Catalog.ascending _) (written_ascending m form) fun j => ?_
  refine (Catalog.mem_ofList ?_).trans (mem_written_iff same).symm
  intro x hx y hy key
  exact eq_of_memberText ((mem_written_iff same).mpr hx) ((mem_written_iff same).mpr hy) key

end Lists

/-! ## Documents -/

/-- The lists of a document describe what the interface holds, each the entities that belong in
it. -/
def Describes (m : Interface) : (forms : List Form) → (listsOf forms).Row → Prop
  | [], _ => True
  | form :: forms, (rows, rest) =>
    (∀ e row, form.row? e = some row → (e ∈ m.entities ↔ e ∈ List.map form.entity rows))
      ∧ Describes m forms rest

theorem ofEntity_mem : ∀ {forms : List Form} {d : (listsOf forms).Row} {e : Entity},
    e ∈ entitiesOf forms d → Form.ofEntity e ∈ forms
  | [], _, _, mem => absurd mem List.not_mem_nil
  | form :: forms, (rows, rest), e, mem => by
      rcases List.mem_append.mp mem with mem | mem
      · obtain ⟨row, -, rfl⟩ := List.mem_map.mp mem
        rw [Form.ofEntity_entity]
        exact List.mem_cons_self
      · exact List.mem_cons_of_mem _ (ofEntity_mem mem)

theorem describes_of_mem {m : Interface} : ∀ {forms : List Form} {d : (listsOf forms).Row},
    forms.Nodup → (∀ e, Form.ofEntity e ∈ forms → (e ∈ m.entities ↔ e ∈ entitiesOf forms d)) →
      Describes m forms d
  | [], _, _, _ => trivial
  | form :: forms, (rows, rest), distinct, same => by
      obtain ⟨fresh, distinct⟩ := List.nodup_cons.mp distinct
      have whole : entitiesOf (form :: forms) (rows, rest)
          = List.map form.entity rows ++ entitiesOf forms rest := rfl
      refine ⟨fun e row written => ?_, describes_of_mem distinct fun e among => ?_⟩
      · have own := Form.eq_ofEntity written
        rw [same e (own ▸ List.mem_cons_self), whole, List.mem_append]
        exact or_iff_left fun mem => fresh (own ▸ ofEntity_mem mem)
      · rw [same e (List.mem_cons_of_mem _ among), whole, List.mem_append]
        refine or_iff_right fun mem => fresh ?_
        obtain ⟨row, -, rfl⟩ := List.mem_map.mp mem
        rw [Form.ofEntity_entity] at among
        exact among

theorem Form.named?_listName (form : Form) : named? form.listName = some form := by
  cases form <;> rfl

theorem listInOrder_list (form : Form) (entries : List Json) :
    listInOrder (form.listName, .array entries)
      = (form.listName, .array (form.inOrder entries)) := by
  rw [listInOrder, form.named?_listName]

section Documents

variable {m : Interface}

theorem Describes.inOrder : ∀ {forms : List Form} {d : (listsOf forms).Row}, Describes m forms d →
    ((listsOf forms).toMembers d).map listInOrder
      = (listsOf forms).toMembers (rowsOf m.entities forms)
  | [], _, _ => rfl
  | form :: forms, (rows, rest), ⟨same, others⟩ => by
      show listInOrder (form.listName, .array (List.map form.schema.toJson rows))
            :: ((listsOf forms).toMembers rest).map listInOrder
          = (form.listName, .array ((m.entities.filterMap form.row?).map form.schema.toJson))
            :: (listsOf forms).toMembers (rowsOf m.entities forms)
      rw [listInOrder_list, inOrder_eq same, others.inOrder]

/-- The ordered list has the entries of the list, in strictly ascending order of their keys. -/
structure Orders (form : Form) (entries ordered : List Json) : Prop where
  ascending : ordered.Pairwise fun x y => memberText form.keyName x < memberText form.keyName y
  same : ∀ entry, entry ∈ ordered ↔ entry ∈ entries.map form.settled

theorem Describes.orders : ∀ {forms : List Form} {d : (listsOf forms).Row}, Describes m forms d →
    ∀ {form : Form} {entries : List Json},
      (form.listName, .array entries) ∈ (listsOf forms).toMembers d →
        Orders form entries (form.inOrder entries)
  | [], _, _, _, _, mem => absurd mem List.not_mem_nil
  | form' :: forms, (rows, rest), ⟨same, others⟩, form, entries, mem => by
      have mem : (form.listName, Json.array entries)
          ∈ (form'.listName, Json.array (List.map form'.schema.toJson rows))
            :: (listsOf forms).toMembers rest := mem
      rcases List.mem_cons.mp mem with here | mem
      · obtain ⟨name, list⟩ := Prod.mk.inj here
        cases list
        have found := form.named?_listName
        rw [name, form'.named?_listName] at found
        cases found
        refine ⟨Catalog.ascending _, fun entry => ?_⟩
        rw [inOrder_eq same, mem_written_iff same]
      · exact others.orders mem

/-- The interface that is loaded is described by the document that is read. -/
theorem describes_of_load {bs : Bytes} (loaded : load bs = .ok m) :
    ∃ d, schema.decode bs = .ok d ∧ Describes m Form.all d := by
  unfold load at loaded
  split at loaded
  · cases loaded
  · rename_i d read
    split at loaded
    · cases loaded
    · rename_i made
      cases loaded
      refine ⟨d, read, describes_of_mem (by decide) fun e _ => ?_⟩
      exact Interface.mem_entities_ofEntities made e

end Documents

theorem schema_isExact : schema.isExact leftOut = true := by decide

section Accepted

variable {bs bs' : Bytes} {m m' : Interface}

/-- The normal form of an accepted dump is what is written for the interface. -/
theorem normalForm_of_load (loaded : load bs = .ok m) :
    ∃ j, Json.parse bs = .ok j ∧ normalForm j = schema.toJson (document m)
      ∧ ∃ d, Describes m Form.all d ∧ rewritten j = .object ((listsOf Form.all).toMembers d) := by
  obtain ⟨d, read, describes⟩ := describes_of_load loaded
  obtain ⟨j, parsed, same⟩ := Schema.parse_of_decode schema_isExact schema_isRegular read
  have lists : rewritten j = .object ((listsOf Form.all).toMembers d) := same
  have written : schema.toJson (document m)
      = .object ((listsOf Form.all).toMembers (rowsOf m.entities Form.all)) := rfl
  refine ⟨j, parsed, ?_, d, describes, lists⟩
  rw [normalForm, lists, written, ← describes.inOrder]

/-- Dumps are dumps of one interface exactly if their normal forms are equal. -/
theorem normalForm_eq_iff {j j' : Json} (loaded : load bs = .ok m) (loaded' : load bs' = .ok m')
    (parsed : Json.parse bs = .ok j) (parsed' : Json.parse bs' = .ok j') :
    normalForm j = normalForm j' ↔ m = m' := by
  obtain ⟨_, same, normal, -⟩ := normalForm_of_load loaded
  obtain ⟨_, same', normal', -⟩ := normalForm_of_load loaded'
  rw [parsed] at same
  rw [parsed'] at same'
  cases same
  cases same'
  rw [normal, normal']
  constructor
  · intro equal
    have saved : save m = save m' := congrArg Json.prettyDocument equal
    have back := load_save m
    rw [saved, load_save] at back
    cases back
    rfl
  · rintro rfl
    rfl

/-- Saving what was loaded gives the normal form of the dump: the value of what is saved is the
value of the dump, rewritten into the one way in which entries are written, with every list in
order.  No list loses an entry by that. -/
theorem save_of_load (loaded : load bs = .ok m) :
    ∃ j, Json.parse bs = .ok j
      ∧ Json.parse (Bytes.ofText (save m)) = .ok (normalForm j)
      ∧ ∀ lists, rewritten j = .object lists → ∀ (form : Form) (entries : List Json),
        (form.listName, .array entries) ∈ lists → Orders form entries (form.inOrder entries) := by
  obtain ⟨j, parsed, normal, d, describes, lists⟩ := normalForm_of_load loaded
  refine ⟨j, parsed, ?_, ?_⟩
  · rw [save, (schema.spelled (document m)).parse_prettyDocument, normal]
  · intro lists' equal form entries mem
    rw [lists] at equal
    cases equal
    exact describes.orders mem

end Accepted

/-- A dump with entries that are arrays, a tag that is an object, an id that is `null`, and an
entry that is there twice. -/
def looseDump : String :=
  "\x7b\"elf_functions\":[[\"g\",\x7b\"weak\":null\x7d],"
    ++ "\x7b\"binding\":\"global\",\"name\":\"f\"\x7d,[\"f\"]],"
    ++ "\"pointer_types\":[[\"p\",\"\",\"P*\",8,8,\"P\",null]]\x7d"

/-- What the loose dump is a dump of. -/
def looseInterface : Interface :=
  { Interface.empty with
    types := .ofList [⟨"p", "p", "", "P*", "P", 8, 8, .pointer⟩]
    functionSymbols := .ofList [⟨"f", .global⟩, ⟨"g", .weak⟩] }

theorem save_of_load_looseDump :
    load (Bytes.ofText looseDump) = .ok looseInterface
      ∧ ∃ j, Json.parse (Bytes.ofText looseDump) = .ok j
        ∧ Json.parse (Bytes.ofText (save looseInterface)) = .ok (normalForm j)
        ∧ ((normalForm j).member? "elf_functions").map Json.compact
          = some ("[\x7b\"name\":\"f\"\x7d,\x7b\"name\":\"g\",\"binding\":\"weak\"\x7d]")
        ∧ ((normalForm j).member? "pointer_types").map Json.compact
          = some ("[\x7b\"linker_set_key\":\"p\",\"source_file\":\"\",\"name\":\"P*\",\"size\":8,"
            ++ "\"alignment\":8,\"referenced_type\":\"P\",\"self_type\":\"p\"\x7d]") := by
  have read : (load (Bytes.ofText looseDump)).toOption = some looseInterface := by
    decide +kernel
  have loaded : load (Bytes.ofText looseDump) = .ok looseInterface := by
    cases made : load (Bytes.ofText looseDump) with
    | error e =>
        rw [made] at read
        cases read
    | ok m =>
        rw [made] at read
        exact congrArg Except.ok (Option.some.inj read)
  obtain ⟨j, parsed, saved, -⟩ := save_of_load loaded
  have shown (name : String) : ((Json.parse (Bytes.ofText looseDump)).toOption.bind fun j =>
      (normalForm j).member? name).map Json.compact
        = ((normalForm j).member? name).map Json.compact := by
    rw [parsed]
    rfl
  refine ⟨loaded, j, parsed, saved, ?_, ?_⟩
  · rw [← shown]
    decide +kernel
  · rw [← shown]
    decide +kernel

end Dump

end AbiCompat
