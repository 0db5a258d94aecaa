/-! Texts as bytes. Files and streams hold lists of bytes; a text goes into them in UTF-8, and a
list of bytes is a text only if it is well-formed UTF-8. -/
namespace RecordQuery

abbrev Bytes := List UInt8

namespace Text

def encode (text : String) : Bytes :=
  text.toByteArray.data.toList

def decode? (bytes : Bytes) : Option String :=
  String.fromUTF8? ⟨bytes.toArray⟩

theorem decodeEncode (text : String) : decode? (encode text) = some text := by
  simp [decode?, encode, String.fromUTF8?, text.isValidUTF8, String.fromUTF8]

theorem encodeOfDecode {bytes : Bytes} {text : String} (spelled : decode? bytes = some text) :
    encode text = bytes := by
  simp only [decode?, String.fromUTF8?] at spelled
  split at spelled
  · cases Option.some.inj spelled
    simp [encode, String.fromUTF8]
  · contradiction

theorem encodeAppend (first second : String) :
    encode (first ++ second) = encode first ++ encode second := by
  simp [encode]

end Text
end RecordQuery
