/-
IncludeFlattener.Text.Utf8 — bytes as text.

`decode?` accepts exactly what `encode` produces (`decode?_eq_some_iff`),
so a text has one spelling in bytes and a sequence of bytes is at most one
text. The lines of a file are cut out of its bytes first and decoded one
by one (`lines?`): a single line that is not UTF-8 makes the whole file
unreadable.
-/
import IncludeFlattener.Text
namespace IncludeFlattener.Text.Utf8

/-- The bytes of a text. -/
def encode (t : Text) : List UInt8 := t.flatMap String.utf8EncodeChar

/-- The text of some bytes, if they are UTF-8. -/
def decode? (bytes : List UInt8) : Option Text :=
  (String.fromUTF8? bytes.toByteArray).map String.toList

/-- How many bytes a text takes. -/
def byteLength (t : Text) : Nat := (encode t).length

/-- The lines of a file with these bytes: cut at the byte of LF, with the
byte of CR before it dropped, then decoded. -/
def lines? (bytes : List UInt8) : Option (List Text) :=
  (splitLinesAt 0x0A 0x0D bytes).mapM decode?

/-! ## Decoding accepts what encoding produces -/

theorem encode_append (s t : Text) : encode (s ++ t) = encode s ++ encode t := by
  simp [encode]

theorem byteLength_append (s t : Text) :
    byteLength (s ++ t) = byteLength s + byteLength t := by
  rw [byteLength, encode_append, List.length_append]
  rfl

/-- The bytes of a string are the encoding of its characters. -/
theorem toByteArray_eq_encode (s : String) :
    s.toByteArray = (encode s.toList).toByteArray := by
  rw [← String.ofList_toList (s := s), String.toByteArray_ofList,
    String.toList_ofList]
  rfl

theorem decode?_encode (t : Text) : decode? (encode t) = some t := by
  have hv : (encode t).toByteArray.IsValidUTF8 := ⟨t, rfl⟩
  have hs : String.fromUTF8 (encode t).toByteArray hv = String.ofList t := by
    rw [← String.toByteArray_inj, String.toByteArray_ofList]
    rfl
  simp [decode?, String.fromUTF8?, hv, hs, String.toList_ofList]

theorem eq_encode_of_decode? {bytes : List UInt8} {t : Text}
    (h : decode? bytes = some t) : bytes = encode t := by
  obtain ⟨s, hs, rfl⟩ := Option.map_eq_some_iff.1 h
  unfold String.fromUTF8? at hs
  split at hs
  · rename_i hv
    cases hs
    have hb : (String.fromUTF8 bytes.toByteArray hv).toByteArray = _ :=
      toByteArray_eq_encode _
    exact List.toByteArray_inj.1 hb
  · cases hs

/-- Decoding gives a text exactly on that text's own bytes. -/
theorem decode?_eq_some_iff {bytes : List UInt8} {t : Text} :
    decode? bytes = some t ↔ bytes = encode t :=
  ⟨eq_encode_of_decode?, fun h => h ▸ decode?_encode t⟩

end IncludeFlattener.Text.Utf8
