import KeySteward.Text.Utf8
import Mathlib.Data.String.Basic

/-! The order of texts is the order of their UTF-8 bytes. A character tells in its first byte how many
follow, and the others are its digits to the base 64. So two characters differ in a first byte, which is
less in the lesser one, and what stands behind them has no say in it. -/

namespace KeySteward.Text.Utf8

private theorem toList_loop (bytes : ByteArray) (index : Nat) (read : List UInt8) :
    ByteArray.toList.loop bytes index read = read.reverse ++ bytes.data.toList.drop index := by
  induction index, read using ByteArray.toList.loop.induct bytes with
  | case1 index read before ih =>
    have inside : index < bytes.data.toList.length := by simpa using before
    have byte : bytes.get! index = bytes.data.toList[index] :=
      getElem!_pos bytes.data index inside
    rw [ByteArray.toList.loop, if_pos before, ih, List.drop_eq_getElem_cons inside, byte]
    simp
  | case2 index read behind =>
    have outside : bytes.data.toList.length ≤ index := by simpa using behind
    rw [ByteArray.toList.loop, if_neg behind, List.drop_eq_nil_of_le outside, List.append_nil]

private theorem encode_eq (text : String) : encode text = text.toList.flatMap String.utf8EncodeChar := by
  rw [encode, String.toUTF8_eq_toByteArray, ByteArray.toList, toList_loop, ← String.utf8Encode_toList,
    List.utf8Encode, List.data_toByteArray]
  rfl

/-- The first of four digits to the base 64 in which two numbers differ is less in the lesser one. -/
theorem firstDigit_lt {m n : Nat} (less : m < n) :
    m / 262144 < n / 262144 ∨ m / 262144 = n / 262144 ∧
      (m / 4096 % 64 < n / 4096 % 64 ∨ m / 4096 % 64 = n / 4096 % 64 ∧
        (m / 64 % 64 < n / 64 % 64 ∨ m / 64 % 64 = n / 64 % 64 ∧ m % 64 < n % 64)) := by
  omega

private theorem encodeChar_lt {c d : Char} (less : c < d) (front back : List UInt8) :
    String.utf8EncodeChar c ++ front < String.utf8EncodeChar d ++ back := by
  have less : c.val.toNat < d.val.toNat := less
  have bound : d.val.toNat < 0x110000 := by
    have valid := d.valid
    unfold UInt32.isValidChar Nat.isValidChar at valid
    omega
  have digits := firstDigit_lt less
  unfold String.utf8EncodeChar
  generalize c.val.toNat = m at less digits ⊢
  generalize d.val.toNat = n at less bound digits ⊢
  -- One case for each two lengths. Where they are the same the digits decide, else the first bytes.
  dsimp only
  split_ifs
  all_goals
    simp (disch := omega) only [List.cons_append, List.nil_append, List.cons_lt_cons_iff,
      UInt8.lt_iff_toNat_lt, ← UInt8.toNat_inj, UInt8.toNat_ofNat', Nat.mod_eq_of_lt]
    omega

private theorem encodeChars_lt {front back : List Char} (less : front < back) :
    front.flatMap String.utf8EncodeChar < back.flatMap String.utf8EncodeChar := by
  induction less with
  | @nil c rest =>
    rw [List.flatMap_nil, List.flatMap_cons]
    obtain ⟨byte, others, first⟩ := List.exists_cons_of_ne_nil (String.utf8EncodeChar_ne_nil (c := c))
    rw [first]
    exact List.Lex.nil
  | rel less =>
    rw [List.flatMap_cons, List.flatMap_cons]
    exact encodeChar_lt less _ _
  | cons rest ih =>
    rw [List.flatMap_cons, List.flatMap_cons]
    exact List.Lex.append_left _ ih _

/-- Texts are ordered as their bytes are. -/
theorem encode_lt_iff {a b : String} : encode a < encode b ↔ a < b := by
  have mono {a b : String} (less : a < b) : encode a < encode b := by
    rw [encode_eq, encode_eq]
    exact encodeChars_lt (String.lt_iff.mp less)
  constructor
  · intro less
    rcases lt_trichotomy a b with lesser | rfl | greater
    · exact lesser
    · exact absurd less (List.lt_irrefl _)
    · exact absurd (mono greater) (List.lt_asymm less)
  · exact mono

end KeySteward.Text.Utf8
