/-
# What readers of documents accept

Whatever a reader of documents takes off a text is the text of a JSON value, and the value tells
what was read.  There is one lemma for each reader; that of a list or of members is about any
reader of their parts, and about any relation between what is read and the value.

## Why

A reader that goes by a schema never makes a JSON value of a text; it reads numbers, names and
members straight into their places.  So what a document is as a value has to be found from what its
reader has accepted.  The lemmas here go from `Takes` to `Spells`, and the induction on schemas
that uses them is in `Normal`.

A tag is the one thing that is accepted in two forms: a string, or an object whose only member has
the tag as its name and `null` as its value.

## What is not

What is refused, and with what message, is not described.  Readers that refuse every text have a
section of their own (`Fails`), because branches in which a reader refuses drop out of proofs by
it.
-/
import AbiCompat.Proofs.Json.Grammar

namespace AbiCompat

namespace Reader

variable {α β σ : Type} {bs mid rest : Bytes} {x : α} {b : UInt8}

/-! ## Readers that refuse

A branch that ends in a fault takes nothing off any text. -/

/-- The reader refuses every text. -/
def Fails (r : Reader α) : Prop := ∀ ⦃bs x rest⦄, ¬ Takes r bs x rest

namespace Fails

theorem throw (f : Fault) : Fails (MonadExcept.throw f : Reader α) := by
  intro bs x rest
  exact Takes.not_throw

theorem bind {r : Reader α} {next : α → Reader β} (after : ∀ x, Fails (next x)) :
    Fails (r >>= next) := by
  intro bs y rest h
  obtain ⟨x, mid, -, h⟩ := h.of_bind
  exact after x h

theorem ite {c : Prop} [Decidable c] {r s : Reader α} (yes : Fails r) (no : Fails s) :
    Fails (if c then r else s) := by
  split
  · exact yes
  · exact no

end Fails

theorem fails_wrongKind (wanted : String) : Fails (wrongKind wanted : Reader α) := by
  refine Fails.bind fun o => ?_
  cases o with
  | none => exact .throw _
  | some b =>
      refine .ite ?_ (.ite ?_ (.ite ?_ (.ite ?_ (.ite ?_ (.ite (.throw _) (.ite (.throw _)
        (.throw _)))))))
      · exact .bind fun _ => .bind fun _ => .throw _
      · exact .bind fun _ => .bind fun _ => .throw _
      · exact .bind fun _ => .bind fun _ => .throw _
      · refine .bind fun n => ?_
        cases n <;> exact .throw _
      · exact .bind fun _ => .bind fun _ => .throw _

theorem fails_unexpected (o : Option UInt8) : Fails (unexpected o : Reader α) := by
  intro bs x rest
  exact not_takes_unexpected

/-! ## Scalars -/

theorem sees_of_advance {u : Unit} (looked : Takes look? bs (some b) mid)
    (advanced : Takes advance mid u rest) : Sees bs b rest := by
  obtain ⟨tail, rfl, sees⟩ := sees_of_look looked
  cases takes_advance advanced
  exact sees

theorem spells_of_text {s : String} (h : Takes text bs s rest) :
    Spells bs (.value (.string s)) rest := by
  obtain ⟨o, mid, looked, h⟩ := h.of_bind
  split at h
  · rename_i quote
    cases quote
    obtain ⟨u, tail, advanced, h⟩ := h.of_bind
    exact .string (sees_of_advance looked advanced) h
  · exact (fails_wrongKind _ h).elim

theorem sees_of_name {s : String} (h : Takes name bs s rest) :
    ∃ tail, Sees bs Byte.quote tail ∧ Takes quotation tail s rest := by
  obtain ⟨o, mid, looked, h⟩ := h.of_bind
  split at h
  · rename_i quote
    cases quote
    obtain ⟨u, tail, advanced, h⟩ := h.of_bind
    exact ⟨tail, sees_of_advance looked advanced, h⟩
  · exact (fails_unexpected _ h).elim

theorem spells_of_flag {x : Bool} (h : Takes flag bs x rest) :
    Spells bs (.value (.bool x)) rest := by
  obtain ⟨o, mid, looked, h⟩ := h.of_bind
  split at h
  · rename_i letter
    cases letter
    obtain ⟨u, tail, advanced, h⟩ := h.of_bind
    obtain ⟨u, after, spelled, h⟩ := h.of_bind
    cases takes_of_word spelled
    obtain ⟨rfl, rfl⟩ := h.of_pure
    exact .yes (sees_of_advance looked advanced)
  · split at h
    · rename_i letter
      cases letter
      obtain ⟨u, tail, advanced, h⟩ := h.of_bind
      obtain ⟨u, after, spelled, h⟩ := h.of_bind
      cases takes_of_word spelled
      obtain ⟨rfl, rfl⟩ := h.of_pure
      exact .no (sees_of_advance looked advanced)
    · exact (fails_wrongKind _ h).elim

/-- The number stands for the integer, which fits in its type. -/
def Fits (fits? : Int → Option α) (x : α) : JsonNumber → Prop
  | .natural n => fits? n.toNat = some x
  | .negative n => n.toInt < 0 ∧ fits? n.toInt = some x
  | .float _ => False

theorem spells_of_integer {wanted : String} {fits? : Int → Option α}
    (h : Takes (integer wanted fits?) bs x rest) :
    ∃ n, Spells bs (.value (.number n)) rest ∧ Fits fits? x n := by
  obtain ⟨o, mid, looked, h⟩ := h.of_bind
  cases o with
  | none => exact absurd h Takes.not_throw
  | some b =>
      obtain ⟨tail, rfl, sees⟩ := sees_of_look looked
      dsimp only at h
      split at h
      · rename_i mark
        obtain ⟨n, mid, literal, h⟩ := h.of_bind
        cases n with
        | natural n =>
            dsimp only at h
            split at h
            · rename_i fits
              obtain ⟨rfl, rfl⟩ := h.of_pure
              exact ⟨.natural n, .number sees mark literal, fits⟩
            · exact absurd h Takes.not_throw
        | negative n =>
            obtain ⟨l, -, value⟩ := numeral_of_number literal
            dsimp only at h
            split at h
            · rename_i fits
              obtain ⟨rfl, rfl⟩ := h.of_pure
              have below := Numeral.negative_of_value? value
              exact ⟨.negative n, .number sees mark literal, below, fits⟩
            · exact absurd h Takes.not_throw
        | float y => exact absurd h Takes.not_throw
      · exact (fails_wrongKind _ h).elim

theorem Fits.uint64 {x : UInt64} {n : JsonNumber} (h : Fits fitsUInt64? x n) :
    n = .natural x := by
  cases n with
  | natural k =>
      have same : fitsUInt64? k.toNat = some x := h
      rw [fitsUInt64?_toNat] at same
      cases same
      rfl
  | negative k =>
      obtain ⟨negative, fits⟩ := h
      rw [fitsUInt64?, if_neg (by omega)] at fits
      cases fits
  | float y => exact h.elim

theorem Fits.uint32 {x : UInt32} {n : JsonNumber} (h : Fits fitsUInt32? x n) :
    n = .natural x.toUInt64 := by
  cases n with
  | natural k =>
      have fits : fitsUInt32? k.toNat = some x := h
      unfold fitsUInt32? at fits
      split at fits
      · rename_i range
        cases fits
        have small : k.toNat < UInt32.size := Int.ofNat_lt.mp range.2
        refine congrArg JsonNumber.natural (UInt64.toNat_inj.mp ?_)
        rw [UInt32.toNat_toUInt64, Int.toNat_natCast, UInt32.toNat_ofNat', Nat.mod_eq_of_lt small]
      · cases fits
  | negative k =>
      obtain ⟨negative, fits⟩ := h
      rw [fitsUInt32?, if_neg (by omega)] at fits
      cases fits
  | float y => exact h.elim

theorem Fits.int64 {x : Int64} {n : JsonNumber} (h : Fits fitsInt64? x n) :
    .number n = Json.ofInt64 x := by
  cases n with
  | natural k =>
      have fits : fitsInt64? k.toNat = some x := h
      unfold fitsInt64? at fits
      split at fits
      · rename_i range
        cases fits
        have value : (Int64.ofInt (k.toNat : Int)).toInt = k.toNat :=
          Int64.toInt_ofInt_of_le range.1 (Int.lt_of_le_of_lt range.2 (by decide))
        have natural : 0 ≤ Int64.ofInt (k.toNat : Int) := by
          rw [Int64.le_iff_toInt_le, value]
          exact Int.natCast_nonneg _
        rw [Json.ofInt64, if_pos natural]
        refine congrArg (Json.number ∘ JsonNumber.natural) (UInt64.toNat_inj.mp ?_)
        exact Int.ofNat_inj.mp (value.symm.trans (toNat_toUInt64 natural).symm)
      · cases fits
  | negative k =>
      obtain ⟨negative, fits⟩ := h
      rw [fitsInt64?_toInt] at fits
      cases fits
      rw [Json.ofInt64, if_neg]
      rw [Int64.le_iff_toInt_le]
      exact Int.not_le.mpr negative
  | float y => exact h.elim

/-! ## Options and tags -/

theorem spells_of_option {inner : Reader α} {o : Option α} (h : Takes (option inner) bs o rest) :
    (o = none ∧ Spells bs (.value .null) rest)
      ∨ ∃ x, o = some x ∧ Takes inner (bs.dropWhile Byte.isBlank) x rest := by
  obtain ⟨c, mid, looked, h⟩ := h.of_bind
  split at h
  · rename_i letter
    cases letter
    obtain ⟨u, tail, advanced, h⟩ := h.of_bind
    obtain ⟨u, after, spelled, h⟩ := h.of_bind
    cases takes_of_word spelled
    obtain ⟨rfl, rfl⟩ := h.of_pure
    exact .inl ⟨rfl, .null (sees_of_advance looked advanced)⟩
  · obtain ⟨rfl, -⟩ := takes_look looked
    obtain ⟨x, mid, read, h⟩ := h.of_bind
    obtain ⟨rfl, rfl⟩ := h.of_pure
    exact .inr ⟨x, rfl, read⟩

theorem tagName_of_known {first : String} {names : List String} {name : String}
    {i : Fin (names.length + 1)} (h : Takes (known first names name) bs i rest) :
    Schema.tagName first names i = name ∧ bs = rest := by
  unfold known at h
  split at h
  · rename_i found
    obtain ⟨rfl, rfl⟩ := h.of_pure
    exact ⟨(List.finIdxOf?_eq_some_iff.mp found).1, rfl⟩
  · exact absurd h Takes.not_throw

/-- A tag is a string, or an object whose only member has the tag as its name and `null` as its
value. -/
theorem spells_of_tag {first : String} {names : List String} {i : Fin (names.length + 1)}
    (h : Takes (tag first names) bs i rest) :
    Spells bs (.value (.string (Schema.tagName first names i))) rest
      ∨ Spells bs (.value (.object [(Schema.tagName first names i, .null)])) rest := by
  obtain ⟨o, mid, looked, h⟩ := h.of_bind
  split at h
  · rename_i quote
    cases quote
    obtain ⟨u, tail, advanced, h⟩ := h.of_bind
    obtain ⟨name, mid, literal, h⟩ := h.of_bind
    obtain ⟨rfl, rfl⟩ := tagName_of_known h
    exact .inl (.string (sees_of_advance looked advanced) literal)
  · split at h
    · rename_i brace
      cases brace
      obtain ⟨u, tail, advanced, h⟩ := h.of_bind
      obtain ⟨name, mid, named, h⟩ := h.of_bind
      obtain ⟨start, quote, literal⟩ := sees_of_name named
      obtain ⟨i', mid, place, h⟩ := h.of_bind
      obtain ⟨tagName, rfl⟩ := tagName_of_known place
      obtain ⟨u, after, expected, h⟩ := h.of_bind
      have colon := sees_of_expect expected
      obtain ⟨o, mid, looked', h⟩ := h.of_bind
      split at h
      · rename_i letter
        cases letter
        obtain ⟨u, null, advanced', h⟩ := h.of_bind
        obtain ⟨u, after, spelled, ends⟩ := h.of_bind
        cases takes_of_word spelled
        obtain ⟨u, mid, expected, ends⟩ := ends.of_bind
        obtain ⟨rfl, rfl⟩ := ends.of_pure
        rw [tagName]
        exact .inr (.object (sees_of_advance looked advanced) (.member rfl quote literal colon
          (.null (sees_of_advance looked' advanced')) (.noMember (sees_of_expect expected))))
      · obtain ⟨u, mid, refused, -⟩ := h.of_bind
        exact (fails_wrongKind _ refused).elim
    · exact (fails_unexpected _ h).elim

/-! ## Lists -/

/-- What a reader takes off a text is the text of a value that has to do with what was read. -/
def Accepts (r : Reader α) (R : α → Json → Prop) : Prop :=
  ∀ ⦃bs x rest⦄, Takes r bs x rest → ∃ j, Spells bs (.value j) rest ∧ R x j

section Lists

variable {item : Reader α} {R : α → Json → Prop} {xs : List α}

theorem Accepts.itemsAfter (each : Accepts item R) : ∀ {bound bs rest : Bytes} {xs : List α},
    Takes (itemsAfter item bound) bs xs rest →
      ∃ js, Spells bs (.items false js) rest ∧ List.Forall₂ R xs js
  | [], _, _, _, h => absurd h Takes.not_throw
  | _ :: bound, bs, rest, xs, h => by
      obtain ⟨o, mid, looked, h⟩ := h.of_bind
      split at h
      · rename_i closed
        cases closed
        obtain ⟨u, tail, advanced, h⟩ := h.of_bind
        obtain ⟨rfl, rfl⟩ := h.of_pure
        exact ⟨[], .noItem (sees_of_advance looked advanced), .nil⟩
      · split at h
        · rename_i comma
          cases comma
          obtain ⟨u, tail, advanced, h⟩ := h.of_bind
          obtain ⟨x, mid, first, h⟩ := h.of_bind
          obtain ⟨ys, after, others, h⟩ := h.of_bind
          obtain ⟨rfl, rfl⟩ := h.of_pure
          obtain ⟨j, value, related⟩ := each first
          obtain ⟨js, items, allRelated⟩ := each.itemsAfter others
          exact ⟨j :: js, .item (sees_of_advance looked advanced) value items,
            .cons related allRelated⟩
        · exact (fails_unexpected _ h).elim

theorem Accepts.list (each : Accepts item R) :
    Accepts (list item) fun xs j => ∃ js, j = .array js ∧ List.Forall₂ R xs js := by
  intro bs xs rest h
  obtain ⟨o, mid, looked, h⟩ := h.of_bind
  cases o with
  | none => exact absurd h Takes.not_throw
  | some b =>
      dsimp only at h
      split at h
      · rename_i opened
        cases opened
        obtain ⟨u, tail, advanced, h⟩ := h.of_bind
        have sees := sees_of_advance looked advanced
        obtain ⟨o, mid, looked', h⟩ := h.of_bind
        split at h
        · rename_i closed
          cases closed
          obtain ⟨u, after, advanced', h⟩ := h.of_bind
          obtain ⟨rfl, rfl⟩ := h.of_pure
          exact ⟨.array [], .array sees (.noItem (sees_of_advance looked' advanced')), [], rfl,
            .nil⟩
        · obtain ⟨rfl, -⟩ := takes_look looked'
          obtain ⟨x, mid, first, h⟩ := h.of_bind
          obtain ⟨bound, mid', same, h⟩ := h.of_bind
          cases same
          obtain ⟨ys, after, others, h⟩ := h.of_bind
          obtain ⟨rfl, rfl⟩ := h.of_pure
          obtain ⟨j, value, related⟩ := each first
          obtain ⟨js, items, allRelated⟩ := each.itemsAfter others
          exact ⟨.array (j :: js), .array sees (.item rfl value.of_blanks items), j :: js, rfl,
            .cons related allRelated⟩
      · exact (fails_wrongKind _ h).elim

end Lists

/-! ## Arrays of fields -/

theorem spells_of_hasItem {isFirst more : Bool} (asked : Takes (hasItem isFirst) bs more mid) :
    (more = false ∧ ∃ tail, mid = Byte.closeBracket :: tail ∧ Sees bs Byte.closeBracket tail)
      ∨ more = true ∧ ∀ {j js after rest}, Spells mid (.value j) after →
        Spells after (.items false js) rest → Spells bs (.items isFirst (j :: js)) rest := by
  obtain ⟨o, mid, looked, h⟩ := asked.of_bind
  split at h
  · rename_i closed
    cases closed
    obtain ⟨rfl, rfl⟩ := h.of_pure
    exact .inl ⟨rfl, sees_of_look looked⟩
  · split at h
    · rename_i first
      cases first
      obtain ⟨rfl, -⟩ := takes_look looked
      split at h
      · obtain ⟨u, mid, refused, -⟩ := h.of_bind
        exact (fails_unexpected _ refused).elim
      · obtain ⟨rfl, rfl⟩ := h.of_pure
        exact .inr ⟨rfl, fun value items => .item rfl value.of_blanks items⟩
    · rename_i first
      cases isFirst with
      | true => exact absurd rfl first
      | false =>
          split at h
          · rename_i comma
            cases comma
            obtain ⟨u, tail, advanced, h⟩ := h.of_bind
            obtain ⟨rfl, rfl⟩ := h.of_pure
            exact .inr ⟨rfl, fun value items =>
              .item (sees_of_advance looked advanced) value items⟩
          · exact (fails_unexpected _ h).elim

/-! ## Members -/

theorem spells_of_memberName? {isFirst : Bool} {o : Option String}
    (asked : Takes (memberName? isFirst) bs o mid) :
    (o = none ∧ ∃ tail, mid = Byte.closeBrace :: tail ∧ Sees bs Byte.closeBrace tail)
      ∨ ∃ name, o = some name ∧ ∀ {after last rest j ms}, Sees mid Byte.colon after →
        Spells after (.value j) last → Spells last (.members false ms) rest →
          Spells bs (.members isFirst ((name, j) :: ms)) rest := by
  obtain ⟨o, mid, looked, h⟩ := asked.of_bind
  split at h
  · rename_i closed
    cases closed
    obtain ⟨rfl, rfl⟩ := h.of_pure
    exact .inl ⟨rfl, sees_of_look looked⟩
  · split at h
    · rename_i first
      cases first
      obtain ⟨name, mid, named, h⟩ := h.of_bind
      obtain ⟨rfl, rfl⟩ := h.of_pure
      obtain ⟨rfl, -⟩ := takes_look looked
      obtain ⟨start, quote, literal⟩ := sees_of_name named
      rw [Sees, List.dropWhile_idempotent] at quote
      exact .inr ⟨name, rfl, fun colon value members =>
        .member rfl quote literal colon value members⟩
    · rename_i first
      cases isFirst with
      | true => exact absurd rfl first
      | false =>
          split at h
          · rename_i comma
            cases comma
            obtain ⟨u, tail, advanced, h⟩ := h.of_bind
            obtain ⟨name, mid, named, h⟩ := h.of_bind
            obtain ⟨rfl, rfl⟩ := h.of_pure
            obtain ⟨start, quote, literal⟩ := sees_of_name named
            exact .inr ⟨name, rfl, fun colon value members =>
              .member (sees_of_advance looked advanced) quote literal colon value members⟩
          · exact (fails_unexpected _ h).elim

/-- Members that are entered into a state are the members of an object.  What one of them does to
the state and to the members before it, all of them do. -/
theorem spells_of_members {enter : String → σ → Reader σ} {I : σ → List (String × Json) → Prop}
    (step : ∀ ⦃name s bs s' rest ms⦄, I s ms → Takes (enter name s) bs s' rest →
      ∃ after j, Sees bs Byte.colon after ∧ Spells after (.value j) rest
        ∧ I s' (ms ++ [(name, j)])) :
    ∀ {bound bs rest : Bytes} {isFirst : Bool} {s t : σ} {before : List (String × Json)},
      I s before → Takes (members enter bound isFirst s) bs t rest →
        ∃ ms, Spells bs (.members isFirst ms) rest ∧ I t (before ++ ms)
  | [], _, _, _, _, _, _, _, h => absurd h Takes.not_throw
  | _ :: bound, bs, rest, isFirst, s, t, before, holds, h => by
      obtain ⟨o, mid, named, h⟩ := h.of_bind
      rcases spells_of_memberName? named with ⟨rfl, tail, rfl, sees⟩ | ⟨name, rfl, member⟩
      · obtain ⟨u, after, advanced, h⟩ := h.of_bind
        cases takes_advance advanced
        obtain ⟨rfl, rfl⟩ := h.of_pure
        exact ⟨[], .noMember sees, by rwa [List.append_nil]⟩
      · obtain ⟨s', mid, entered, h⟩ := h.of_bind
        obtain ⟨after, j, colon, value, holds⟩ := step holds entered
        obtain ⟨ms, members, holds⟩ := spells_of_members step holds h
        rw [List.append_assoc] at holds
        exact ⟨(name, j) :: ms, member colon value members, holds⟩

end Reader

end AbiCompat
