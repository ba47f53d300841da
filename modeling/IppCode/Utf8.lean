import IppCode.Text
/-!
# Utf8 — texts as bytes

Files and standard input are bytes; they are read as text only if they are well-formed
UTF-8.  Reading undoes writing, and only what can be written can be read.
-/
namespace IppCode.Utf8

abbrev Bytes := List UInt8

def encode (t : Text) : Bytes := (String.ofList t).toByteArray.data.toList

def decode? (bytes : Bytes) : Option Text :=
  (ByteArray.utf8Decode? ⟨bytes.toArray⟩).map Array.toList

theorem decode_encode (t : Text) : decode? (encode t) = some t := by
  have h : (⟨(encode t).toArray⟩ : ByteArray) = List.utf8Encode t := by
    simp [encode]
  rw [decode?, h, List.utf8Decode?_utf8Encode]
  simp

theorem encode_of_decode {bytes : Bytes} {t : Text} (h : decode? bytes = some t) :
    encode t = bytes := by
  obtain ⟨cs, hcs, rfl⟩ := Option.map_eq_some_iff.1 h
  have hs : (ByteArray.utf8Decode? ⟨bytes.toArray⟩).isSome := by simp [hcs]
  have he := ByteArray.utf8Encode_get_utf8Decode? (b := ⟨bytes.toArray⟩) (h := hs)
  simp only [hcs, Option.get_some] at he
  simp [encode, he]

end IppCode.Utf8
