/-
Questbook.Proofs.Bytes.Encoding — the bytes of a text.

A source is kept as bytes, and whoever goes through it byte by byte sees pieces of
characters. What makes this safe is that UTF-8 keeps ASCII apart: a byte that
encodes an ASCII character occurs in the encoding of no other character
(`beq_toUInt8_of_mem`). So a question that asks a byte for ASCII characters only is
answered alike by all bytes of a character, and the answer is that of the
character.
-/
import Questbook.Text.Position
import Questbook.Text.Blank

namespace Questbook.Text

/-- The bytes of a text. -/
def encode (cs : List Char) : List UInt8 :=
  cs.flatMap String.utf8EncodeChar

@[simp] theorem encode_nil : encode [] = [] := rfl

@[simp] theorem encode_cons (c : Char) (cs : List Char) :
    encode (c :: cs) = String.utf8EncodeChar c ++ encode cs := rfl

@[simp] theorem encode_append (cs ds : List Char) : encode (cs ++ ds) = encode cs ++ encode ds :=
  List.flatMap_append

@[simp] theorem length_encode (cs : List Char) : (encode cs).length = size cs := by
  induction cs with
  | nil => rfl
  | cons c cs ih => simp [ih]

/-- The bytes of a source. -/
def bytesOf (source : String) : List UInt8 :=
  source.toByteArray.data.toList

theorem bytesOf_ofList (cs : List Char) : bytesOf (String.ofList cs) = encode cs := by
  rw [bytesOf, String.toByteArray_ofList, List.utf8Encode, List.toList_data_toByteArray, encode]

theorem bytesOf_eq (source : String) : bytesOf source = encode source.toList := by
  rw [← bytesOf_ofList, String.ofList_toList]

theorem utf8ByteSize_eq (source : String) : source.utf8ByteSize = size source.toList := by
  rw [← length_encode, ← bytesOf_eq]
  rfl

/-! ## 1. ASCII characters -/

theorem utf8EncodeChar_of_lt {c : Char} (h : c.toNat < 128) :
    String.utf8EncodeChar c = [c.toUInt8] := by
  apply String.utf8EncodeChar_eq_singleton
  rw [Char.utf8Size_eq_one_iff, UInt32.le_iff_toNat_le]
  exact Nat.le_of_lt_succ h

theorem le_of_mem_utf8EncodeChar {c : Char} {b : UInt8} (h : 128 ≤ c.toNat)
    (hb : b ∈ String.utf8EncodeChar c) : 128 ≤ b.toNat := by
  have hc : ¬ c.val.toNat ≤ 0x7f := Nat.not_le.2 h
  simp only [String.utf8EncodeChar, if_neg hc] at hb
  split at hb
  · simp only [List.mem_cons, List.not_mem_nil, or_false] at hb
    rcases hb with rfl | rfl <;> rw [UInt8.toNat_ofNat'] <;> omega
  · split at hb
    · simp only [List.mem_cons, List.not_mem_nil, or_false] at hb
      rcases hb with rfl | rfl | rfl <;> rw [UInt8.toNat_ofNat'] <;> omega
    · simp only [List.mem_cons, List.not_mem_nil, or_false] at hb
      rcases hb with rfl | rfl | rfl | rfl <;> rw [UInt8.toNat_ofNat'] <;> omega

theorem toNat_toUInt8_of_lt {c : Char} (h : c.toNat < 128) : c.toUInt8.toNat = c.toNat := by
  rw [Char.toUInt8, UInt32.toNat_toUInt8]
  exact Nat.mod_eq_of_lt (Nat.lt_trans h (by decide))

/-- The byte of an ASCII character occurs in the encoding of no other character. -/
theorem beq_toUInt8_of_mem {c d : Char} {b : UInt8} (hd : d.toNat < 128)
    (hb : b ∈ String.utf8EncodeChar c) : (b == d.toUInt8) = (c == d) := by
  rw [Bool.eq_iff_iff, beq_iff_eq, beq_iff_eq]
  by_cases hc : c.toNat < 128
  · rw [utf8EncodeChar_of_lt hc] at hb
    obtain rfl := List.mem_singleton.1 hb
    refine ⟨fun h => ?_, fun h => by rw [h]⟩
    have hnat := congrArg UInt8.toNat h
    rw [toNat_toUInt8_of_lt hc, toNat_toUInt8_of_lt hd] at hnat
    exact Char.toNat_inj.1 hnat
  · have hle := le_of_mem_utf8EncodeChar (Nat.not_lt.1 hc) hb
    refine ⟨fun h => ?_, fun h => absurd (h ▸ hd) hc⟩
    rw [h, toNat_toUInt8_of_lt hd] at hle
    exact absurd hd (Nat.not_lt.2 hle)

/-! ## 2. Boundaries -/

/-- What stands before a place between two characters are whole characters. -/
theorem isValid_of_append {source : String} {front rest : List Char}
    (h : source.toList = front ++ rest) : (⟨size front⟩ : String.Pos.Raw).IsValid source := by
  refine String.Pos.Raw.isValid_iff_exists_append.2
    ⟨String.ofList front, String.ofList rest, ?_, ?_⟩
  · rw [← String.ofList_append, ← h, String.ofList_toList]
  · rw [String.rawEndPos, utf8ByteSize_eq, String.toList_ofList]

theorem size_toByteArray_ofList (cs : List Char) :
    (String.ofList cs).toByteArray.size = size cs := by
  rw [String.size_toByteArray, utf8ByteSize_eq, String.toList_ofList]

/-- The text between two such places. -/
theorem extract_of_append {source : String} {front piece rest : List Char}
    (h : source.toList = front ++ (piece ++ rest))
    (hstart : (⟨size front⟩ : String.Pos.Raw).IsValid source)
    (hstop : (⟨size front + size piece⟩ : String.Pos.Raw).IsValid source) :
    source.extract ⟨⟨size front⟩, hstart⟩ ⟨⟨size front + size piece⟩, hstop⟩ =
      String.ofList piece := by
  have hsource : source = String.ofList front ++ (String.ofList piece ++ String.ofList rest) := by
    rw [← String.ofList_append, ← String.ofList_append, ← h, String.ofList_toList]
  rw [← String.toByteArray_inj, String.toByteArray_extract]
  show source.toByteArray.extract (size front + 0) (size front + size piece) = _
  rw [hsource, String.toByteArray_append, String.toByteArray_append,
    ByteArray.extract_append_size_add' (size_toByteArray_ofList front).symm,
    ByteArray.extract_append_eq_left (size_toByteArray_ofList piece).symm]

end Questbook.Text
