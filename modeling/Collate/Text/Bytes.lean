/-!
# Text as bytes

The UTF-8 view of a text: `Text.bytes` and its partial inverse `Text.ofBytes?`.  Decoding undoes
encoding (`ofBytes?_bytes`), and encoding turns the concatenation of texts into the concatenation of
byte strings (`bytes_append`).
-/

namespace Collate.Text

/-- The UTF-8 encoding of a text. -/
def bytes (s : String) : List UInt8 := s.toUTF8.data.toList

/-- The text with the given UTF-8 encoding, if there is one. -/
def ofBytes? (bs : List UInt8) : Option String := String.fromUTF8? ⟨bs.toArray⟩

@[simp] theorem bytes_append (s t : String) : bytes (s ++ t) = bytes s ++ bytes t := by
  simp [bytes]

@[simp] theorem ofBytes?_bytes (s : String) : ofBytes? (bytes s) = some s := by
  have same : (⟨(bytes s).toArray⟩ : ByteArray) = s.toByteArray := by simp [bytes]
  unfold ofBytes?
  rw [same, String.fromUTF8?, dif_pos s.isValidUTF8]
  rfl

theorem bytes_injective {s t : String} (h : bytes s = bytes t) : s = t := by
  have := congrArg ofBytes? h
  simpa using this

end Collate.Text
