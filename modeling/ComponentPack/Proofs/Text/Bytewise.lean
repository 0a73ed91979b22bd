import Mathlib
import ComponentPack.Proofs.Text.Bytes
import ComponentPack.Proofs.Text.Occurrence
import ComponentPack.Text.Utf8

/-!
Texts byte by byte. A character outside of ASCII is spread over bytes that are no ASCII characters,
so whoever looks for ASCII characters only finds the same in the bytes of a text as in the text, and
at the same places.
-/

set_option autoImplicit false

namespace ComponentPack.Text

open List

theorem spread_eq_flatMap (text : Text) :
    spread text = text.flatMap fun c =>
      (String.utf8EncodeChar c).map fun byte => Char.ofNat byte.toNat := by
  have whole : spread text = (bytes text).map fun byte => Char.ofNat byte.toNat := rfl
  rw [whole, bytes_eq_flatMap, map_flatMap]

@[simp] theorem spread_nil : spread [] = [] := by rw [spread_eq_flatMap]; rfl

theorem spread_append (a b : Text) : spread (a ++ b) = spread a ++ spread b := by
  rw [spread_eq_flatMap, spread_eq_flatMap, spread_eq_flatMap, flatMap_append]

theorem spread_cons (c : Char) (text : Text) : spread (c :: text) = spread [c] ++ spread text :=
  spread_append [c] text

theorem length_spread (text : Text) : (spread text).length = byteSize text := by
  have whole : spread text = (bytes text).map fun byte => Char.ofNat byte.toNat := rfl
  rw [whole, length_map, length_bytes]

theorem toNat_ofNat_byte (byte : UInt8) : (Char.ofNat byte.toNat).toNat = byte.toNat := by
  have small := byte.toNat_lt
  rw [Char.toNat_ofNat, if_pos (.inl (by omega))]

theorem spread_cons_ascii {c : Char} (ascii : c.toNat < 0x80) (text : Text) :
    spread (c :: text) = c :: spread text := by
  have byte : (UInt8.ofNat c.toNat).toNat = c.toNat := by
    rw [UInt8.toNat_ofNat']
    omega
  rw [spread_eq_flatMap, spread_eq_flatMap, flatMap_cons, utf8EncodeChar_ascii ascii,
    map_singleton, byte, Char.ofNat_toNat]
  rfl

theorem spread_ascii {text : Text} (ascii : ∀ c ∈ text, c.toNat < 0x80) : spread text = text := by
  induction text with
  | nil => exact spread_nil
  | cons c text ih =>
    rw [forall_mem_cons] at ascii
    rw [spread_cons_ascii ascii.1, ih ascii.2]

/-- The first byte of a character is none that continues another one. -/
theorem exists_spread_wide {c : Char} (wide : 0x80 ≤ c.toNat) :
    ∃ first others, spread [c] = first :: others ∧ 0xC0 ≤ first.toNat ∧
      ∀ d ∈ first :: others, 0x80 ≤ d.toNat := by
  have spreads : spread [c] = (String.utf8EncodeChar c).map fun byte => Char.ofNat byte.toNat := by
    rw [spread_eq_flatMap, flatMap_singleton]
  have outside : ∀ d ∈ spread [c], 0x80 ≤ d.toNat := by
    intro d member
    rw [spreads] at member
    obtain ⟨byte, among, rfl⟩ := mem_map.mp member
    rw [toNat_ofNat_byte]
    exact le_of_mem_utf8EncodeChar wide among
  have leads : ∃ first others, String.utf8EncodeChar c = first :: others ∧ 0xC0 ≤ first.toNat := by
    have large : ¬ c.val.toNat ≤ 127 := Nat.not_le_of_lt wide
    rw [String.utf8EncodeChar, if_neg large]
    split_ifs
    · exact ⟨_, _, rfl, by rw [UInt8.toNat_ofNat']; omega⟩
    · exact ⟨_, _, rfl, by rw [UInt8.toNat_ofNat']; omega⟩
    · exact ⟨_, _, rfl, by rw [UInt8.toNat_ofNat']; omega⟩
  obtain ⟨first, others, encoded, lead⟩ := leads
  rw [encoded, map_cons] at spreads
  refine ⟨_, _, spreads, ?_, ?_⟩
  · rwa [toNat_ofNat_byte]
  · rw [← spreads]
    exact outside

theorem ne_of_wide {c d : Char} (wide : 0x80 ≤ c.toNat) (ascii : d.toNat < 0x80) : c ≠ d := by
  rintro rfl
  omega

/-- A run of characters that are told from others by ASCII only: either no other character counts,
or all of them do. -/
theorem takeWhile_spread {p : Char → Bool} {counts : Bool}
    (wide : ∀ c, 0x80 ≤ c.toNat → p c = counts) (text : Text) :
    (spread text).takeWhile p = spread (text.takeWhile p) ∧
      (spread text).dropWhile p = spread (text.dropWhile p) := by
  induction text with
  | nil => simp
  | cons c text ih =>
    by_cases narrow : c.toNat < 0x80
    · rw [spread_cons_ascii narrow]
      by_cases wanted : p c = true
      · rw [takeWhile_cons_of_pos wanted, takeWhile_cons_of_pos wanted,
          dropWhile_cons_of_pos wanted, dropWhile_cons_of_pos wanted,
          spread_cons_ascii narrow, ih.1]
        exact ⟨rfl, ih.2⟩
      · rw [takeWhile_cons_of_neg wanted, takeWhile_cons_of_neg wanted,
          dropWhile_cons_of_neg wanted, dropWhile_cons_of_neg wanted, spread_nil,
          spread_cons_ascii narrow]
        exact ⟨rfl, rfl⟩
    · have beyond := Nat.le_of_not_lt narrow
      obtain ⟨first, others, spreads, -, outside⟩ := exists_spread_wide beyond
      cases counts with
      | true =>
        have all : ∀ d ∈ spread [c], p d = true := by
          rw [spreads]
          exact fun d member => wide d (outside d member)
        rw [spread_cons, takeWhile_append_of_pos all, dropWhile_append_of_pos all,
          takeWhile_cons_of_pos (wide c beyond), dropWhile_cons_of_pos (wide c beyond),
          spread_cons c (text.takeWhile p), ih.1]
        exact ⟨rfl, ih.2⟩
      | false =>
        have unwanted : ¬ p c = true := by simp [wide c beyond]
        have unwanted' : ¬ p first = true := by
          simp [wide first (outside first mem_cons_self)]
        rw [takeWhile_cons_of_neg unwanted, dropWhile_cons_of_neg unwanted, spread_nil,
          spread_cons, spreads, cons_append, takeWhile_cons_of_neg unwanted',
          dropWhile_cons_of_neg unwanted']
        exact ⟨rfl, rfl⟩

end ComponentPack.Text
