/-!
# Text as UTF-8 bytes

`encode` writes a text as bytes and `decode` reads bytes that are well formed: `decode_encode`.
-/

namespace Tenancy.Utf8

abbrev Bytes := List UInt8

def encode (s : String) : Bytes := s.toByteArray.data.toList

/-- The text written by `bytes`, unless they are not UTF-8. -/
def decode (bytes : Bytes) : Option String := String.fromUTF8? ⟨bytes.toArray⟩

/-- The number of bytes that a text takes. -/
def size (s : String) : Nat := (encode s).length

theorem decode_encode (s : String) : decode (encode s) = some s := by
  have h : (⟨(encode s).toArray⟩ : ByteArray) = s.toByteArray := by simp [encode]
  rw [decode, h, String.fromUTF8?, dif_pos s.isValidUTF8]
  rfl

end Tenancy.Utf8
