/-
# Texts as bytes

Documents are byte strings; a text is one by its UTF-8 form, and a byte string that is no UTF-8 is
no text.
-/

namespace AbiCompat

/-- The bytes of a document. -/
abbrev Bytes := List UInt8

namespace Bytes

/-- The UTF-8 form of a text. -/
def ofText (s : String) : Bytes := s.toByteArray.data.toList

/-- The text with this UTF-8 form; nothing if there is none. -/
def text? (bs : Bytes) : Option String := String.fromUTF8? ⟨bs.toArray⟩

theorem text?_ofText (s : String) : text? (ofText s) = some s := by
  have h : (⟨(ofText s).toArray⟩ : ByteArray) = s.toByteArray := by
    simp [ofText]
  simp only [text?, h, String.fromUTF8?, s.isValidUTF8, dif_pos]
  rfl

end Bytes

end AbiCompat
