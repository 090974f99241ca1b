/-
# The policy of a comparison

What counts as a difference, and what is not looked at.  A policy is a document as well, with a
schema of its own, in which every member may be left out.

The keys that are left out are a set: a list in which a key comes twice, or in another order, is
the same policy.
-/
import AbiCompat.Catalog
import AbiCompat.Json.Read

namespace AbiCompat

abbrev KeySet := Catalog (fun key : String => key)

namespace KeySet

def ofList (keys : List String) : KeySet := Catalog.ofList keys

/-- The keys of either set. -/
def union (a b : KeySet) : KeySet := b.items.foldl Catalog.insert a

end KeySet

/-- What a comparison counts as a difference. -/
structure Policy where
  /-- Types that do not resolve are compared by their ids instead of taken to match. -/
  opaqueDiffers : Bool
  /-- Records and enumerations that nothing exported reaches are compared as well. -/
  checkAll : Bool
  /-- Weak symbols may come and go. -/
  weakMayChange : Bool
  /-- Linker set keys that are left out. -/
  ignored : KeySet

namespace Policy

/-- The policy that leaves nothing out and adds nothing. -/
def plain : Policy := ⟨false, false, false, .empty⟩

instance : Inhabited Policy := ⟨plain⟩

/-- Whether a key is left out. -/
def ignores (p : Policy) (key : String) : Bool := p.ignored.contains key

/-- A policy as a document. -/
def schema : Schema :=
  .object "DiffPolicy" true <|
    .optional "treat_opaque_as_different" .flag <|
    .optional "check_all_apis" .flag <|
    .optional "allow_adding_removing_weak_symbols" .flag <|
    .optional "ignored_symbols" (.list .text) .done

def ofDocument : schema.El → Policy := fun (opaqueDiffers, checkAll, weakMayChange, ignored, ()) =>
  ⟨opaqueDiffers, checkAll, weakMayChange, KeySet.ofList ignored⟩

def document (p : Policy) : schema.El :=
  (p.opaqueDiffers, p.checkAll, p.weakMayChange, p.ignored.items, ())

/-- The policy that a text describes. -/
def read (bs : Bytes) : Except Fault Policy := (schema.decode bs).map ofDocument

end Policy

end AbiCompat
