import Mathlib
import PieceSquare.Files

set_option autoImplicit false

/-! # The bytes of a text

Bytes are decoded as a text exactly if they are the bytes of that text (`decodeText_eq_some_iff`),
and every byte below 128 is a character of its own (`mem_utf8EncodeChar_iff`). So a text has a newline
among its characters if it has one among its bytes, and not otherwise (`newline_mem_utf8_iff`).
-/

namespace PieceSquare

/-! ## Bytes as a list -/

theorem toList_loop (bytes : ByteArray) (i : Nat) (front : List UInt8) :
    ByteArray.toList.loop bytes i front = front.reverse ++ bytes.data.toList.drop i := by
  fun_induction ByteArray.toList.loop bytes i front with
  | case1 i front h ih =>
      have hi : i < bytes.data.toList.length := by simpa using h
      rw [ih, List.drop_eq_getElem_cons hi]
      simp [ByteArray.get!, h]
  | case2 i front h =>
      rw [List.drop_eq_nil_of_le (by simpa using Nat.le_of_not_lt h), List.append_nil]

theorem toList_eq_data (bytes : ByteArray) : bytes.toList = bytes.data.toList := by
  rw [ByteArray.toList, toList_loop]
  rfl

theorem toList_append (a b : ByteArray) : (a ++ b).toList = a.toList ++ b.toList := by
  rw [toList_eq_data, toList_eq_data, toList_eq_data, ByteArray.toList_data_append]

/-! ## Texts -/

/-- The bytes of a text in UTF-8. -/
def utf8 (text : String) : List UInt8 := text.toUTF8.toList

/-- Whether some bytes are the bytes of a text. -/
def IsUtf8 (bytes : List UInt8) : Prop := ∃ text, utf8 text = bytes

theorem utf8_eq_flatMap (text : String) :
    utf8 text = text.toList.flatMap String.utf8EncodeChar := by
  rw [utf8, String.toUTF8_eq_toByteArray, ← String.utf8Encode_toList, toList_eq_data,
    List.utf8Encode, List.toList_data_toByteArray]

theorem utf8_append (a b : String) : utf8 (a ++ b) = utf8 a ++ utf8 b := by
  rw [utf8_eq_flatMap, String.toList_append, List.flatMap_append, ← utf8_eq_flatMap,
    ← utf8_eq_flatMap]

theorem decodeText_eq_some_iff {bytes : List UInt8} {text : String} :
    decodeText bytes = some text ↔ utf8 text = bytes := by
  rw [decodeText, String.fromUTF8?]
  constructor
  · intro h
    split_ifs at h
    cases h
    rw [utf8, toList_eq_data]
    rfl
  · rintro rfl
    have hbytes : (⟨(utf8 text).toArray⟩ : ByteArray) = text.toByteArray := by
      rw [utf8, toList_eq_data]
      rfl
    rw [hbytes, dif_pos text.isValidUTF8]
    rfl

theorem decodeText_eq_none_iff {bytes : List UInt8} : decodeText bytes = none ↔ ¬ IsUtf8 bytes := by
  rw [Option.eq_none_iff_forall_ne_some, IsUtf8, not_exists]
  exact forall_congr' fun text => not_congr decodeText_eq_some_iff

/-! ## Single bytes -/

/-- A byte below 128 is the only byte of its character. -/
theorem mem_utf8EncodeChar_iff {c : Char} {b : UInt8} (hb : b.toNat < 128) :
    b ∈ String.utf8EncodeChar c ↔ c.val.toNat = b.toNat := by
  -- The first bytes of longer forms start from 192, all further bytes from 128.
  have hmem : b ∈ String.utf8EncodeChar c ↔
      b.toNat ∈ (String.utf8EncodeChar c).map UInt8.toNat := by
    rw [List.mem_map_of_injective fun _ _ => UInt8.toNat_inj.mp]
  rw [hmem]
  simp only [String.utf8EncodeChar]
  split_ifs <;>
    simp only [List.map_cons, List.map_nil, List.mem_cons, List.not_mem_nil, or_false,
      UInt8.toNat_ofNat'] <;> omega

theorem newline_mem_utf8_iff {text : String} : 10 ∈ utf8 text ↔ '\n' ∈ text.toList := by
  have hchar (c : Char) : 10 ∈ String.utf8EncodeChar c ↔ c = '\n' := by
    rw [mem_utf8EncodeChar_iff (by decide)]
    exact Char.toNat_inj (d := '\n')
  rw [utf8_eq_flatMap, List.mem_flatMap]
  simp only [hchar, exists_eq_right]

end PieceSquare
