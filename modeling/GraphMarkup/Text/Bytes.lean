/-!
# Text as bytes

Files, fragments and output are bytes; text goes into them in UTF-8 and comes out of them only
where they are valid UTF-8. `decode?_encode` says that nothing is lost on the way.
-/

namespace GraphMarkup

/-- What a file holds and what an output takes. -/
abbrev Bytes := List UInt8

namespace Text

/-- A text in UTF-8. -/
def encode (text : String) : Bytes := text.toList.flatMap String.utf8EncodeChar

/-- The text that some bytes are, if they are valid UTF-8. -/
def decode? (bytes : Bytes) : Option String := String.fromUTF8? bytes.toByteArray

@[simp] theorem encode_append (s t : String) : encode (s ++ t) = encode s ++ encode t := by
  simp [encode]

theorem toByteArray_encode (text : String) : (encode text).toByteArray = text.toByteArray :=
  String.utf8Encode_toList

/-- Reading what was written gives the text back. -/
theorem decode?_encode (text : String) : decode? (encode text) = some text := by
  unfold decode?
  rw [toByteArray_encode]
  have hValid : text.toByteArray.IsValidUTF8 := text.isValidUTF8
  simp only [String.fromUTF8?, hValid, dif_pos]
  rfl

/-- Different texts have different bytes. -/
theorem encode_injective {s t : String} (h : encode s = encode t) : s = t := by
  have hRead := decode?_encode s
  rw [h, decode?_encode] at hRead
  exact (Option.some.inj hRead).symm

end Text

end GraphMarkup
