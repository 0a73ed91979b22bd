import ComponentPack.Text.Basic
import Mathlib

/-!
The UTF-8 bytes of texts. Each character has bytes of its own, and the order of texts by characters
is their order by bytes.
-/

set_option autoImplicit false

namespace ComponentPack.Text

open List

/-- The bytes of the UTF-8 form, as a list. -/
def bytes (text : Text) : List UInt8 := (toBytes text).data.toList

theorem bytes_eq_flatMap (text : Text) : bytes text = text.flatMap String.utf8EncodeChar := by
  rw [bytes, toBytes, String.toUTF8, String.toByteArray_ofList, List.utf8Encode]
  exact toList_data_toByteArray

theorem bytes_append (a b : Text) : bytes (a ++ b) = bytes a ++ bytes b := by
  rw [bytes_eq_flatMap, bytes_eq_flatMap, bytes_eq_flatMap, flatMap_append]

theorem length_bytes (text : Text) : (bytes text).length = byteSize text := by
  rw [bytes_eq_flatMap]
  induction text with
  | nil => rfl
  | cons c text ih =>
    rw [flatMap_cons, length_append, ih, String.length_utf8EncodeChar]
    rfl

theorem utf8EncodeChar_ascii {c : Char} (ascii : c.toNat < 0x80) :
    String.utf8EncodeChar c = [UInt8.ofNat c.toNat] := by
  have small : c.val.toNat ≤ 127 := Nat.le_of_lt_succ ascii
  rw [String.utf8EncodeChar, if_pos small]
  rfl

theorem le_of_mem_utf8EncodeChar {c : Char} {byte : UInt8} (wide : 0x80 ≤ c.toNat)
    (member : byte ∈ String.utf8EncodeChar c) : 0x80 ≤ byte.toNat := by
  have large : ¬ c.val.toNat ≤ 127 := Nat.not_le_of_lt wide
  rw [String.utf8EncodeChar, if_neg large] at member
  split at member
  · simp only [mem_cons, not_mem_nil, or_false] at member
    rcases member with rfl | rfl <;> rw [UInt8.toNat_ofNat'] <;> omega
  · split at member
    · simp only [mem_cons, not_mem_nil, or_false] at member
      rcases member with rfl | rfl | rfl <;> rw [UInt8.toNat_ofNat'] <;> omega
    · simp only [mem_cons, not_mem_nil, or_false] at member
      rcases member with rfl | rfl | rfl | rfl <;> rw [UInt8.toNat_ofNat'] <;> omega

/-- An ASCII byte belongs to the character that it encodes. -/
theorem eq_of_mem_utf8EncodeChar {c d : Char} (ascii : d.toNat < 0x80)
    (member : UInt8.ofNat d.toNat ∈ String.utf8EncodeChar c) : c = d := by
  by_cases narrow : c.toNat < 0x80
  · rw [utf8EncodeChar_ascii narrow, mem_singleton] at member
    have same := congrArg UInt8.toNat member
    rw [UInt8.toNat_ofNat', UInt8.toNat_ofNat'] at same
    exact Char.toNat_inj.mp (by omega)
  · have wide := le_of_mem_utf8EncodeChar (Nat.le_of_not_lt narrow) member
    rw [UInt8.toNat_ofNat'] at wide
    omega

theorem exists_of_mem_head?_bytes {text : Text} {byte : UInt8} (first : byte ∈ (bytes text).head?) :
    ∃ c ∈ text.head?, byte ∈ String.utf8EncodeChar c := by
  rw [bytes_eq_flatMap] at first
  cases text with
  | nil => cases first
  | cons c text =>
    rw [flatMap_cons, List.head?_append_of_ne_nil _ (String.utf8EncodeChar_ne_nil)] at first
    exact ⟨c, rfl, mem_of_mem_head? first⟩

theorem exists_of_mem_getLast?_bytes {text : Text} {byte : UInt8}
    (last : byte ∈ (bytes text).getLast?) :
    ∃ c ∈ text.getLast?, byte ∈ String.utf8EncodeChar c := by
  rw [bytes_eq_flatMap] at last
  rcases eq_nil_or_concat text with rfl | ⟨front, c, rfl⟩
  · cases last
  · rw [concat_eq_append, flatMap_append, flatMap_singleton,
      List.getLast?_append_of_ne_nil _ String.utf8EncodeChar_ne_nil] at last
    exact ⟨c, by simp, mem_of_getLast? last⟩

/-- The first character that differs decides, whatever follows. -/
theorem utf8EncodeChar_append_lt {c d : Char} (below : c < d) (a b : List UInt8) :
    String.utf8EncodeChar c ++ a < String.utf8EncodeChar d ++ b := by
  have below : c.val.toNat < d.val.toNat := below
  have bound : d.val.toNat < 0x110000 := by
    have valid := d.valid
    simp only [UInt32.isValidChar, Nat.isValidChar] at valid
    omega
  -- The digits to the base 64 decide from the last one up.
  have digit (m n : Nat) (less : m < n) : m / 64 < n / 64 ∨ m / 64 = n / 64 ∧ m % 64 < n % 64 := by
    omega
  have one := digit c.val.toNat d.val.toNat below
  have two := digit (c.val.toNat / 64) (d.val.toNat / 64)
  have three := digit (c.val.toNat / 4096) (d.val.toNat / 4096)
  rw [Nat.div_div_eq_div_mul, Nat.div_div_eq_div_mul] at two three
  have next (n : Nat) : (n % 64 + 128) % 2 ^ 8 = n % 64 + 128 := by omega
  have lead (n : Nat) (small : n / 262144 < 8) :
      (n / 262144 % 8 + 240) % 2 ^ 8 = n / 262144 + 240 := by omega
  have top := lead c.val.toNat (by omega)
  have top' := lead d.val.toNat (by omega)
  simp only [String.utf8EncodeChar]
  split_ifs <;>
    simp only [cons_append, nil_append, cons_lt_cons_iff, UInt8.lt_iff_toNat_lt,
      ← UInt8.toNat_inj, UInt8.toNat_ofNat', next, top, top'] <;> omega

theorem bytes_lt_bytes {a b : Text} (below : a < b) : bytes a < bytes b := by
  rw [bytes_eq_flatMap, bytes_eq_flatMap]
  induction a generalizing b with
  | nil =>
    cases b with
    | nil => exact absurd below (lt_irrefl _)
    | cons d b =>
      rw [flatMap_nil, flatMap_cons]
      cases bytes : String.utf8EncodeChar d with
      | nil => exact absurd bytes String.utf8EncodeChar_ne_nil
      | cons first others => exact nil_lt_cons _ _
  | cons c a ih =>
    cases b with
    | nil => exact absurd below (not_lt_nil _)
    | cons d b =>
      rw [flatMap_cons, flatMap_cons]
      rcases cons_lt_cons_iff.mp below with first | ⟨rfl, rest⟩
      · exact utf8EncodeChar_append_lt first _ _
      · exact append_left_lt (ih rest)

end ComponentPack.Text
