import ComponentPack.Localization.Table
import ComponentPack.Proofs.Text.Lines

/-!
Line breaks in printed JSON. Strings and numbers are printed on one line, so that a printed value
has line feeds only after brackets, commas and whole values: it has no carriage return, and none of
its lines ends in a backslash.
-/

set_option autoImplicit false

namespace ComponentPack.Json

open Text List

/-- The characters of numbers. -/
def isNumberChar (c : Char) : Bool := c.isDigit || c = '.' || c = '-' || c = '+' || c = 'e'

theorem isNumberChar_of_mem_ofNat {n : Nat} {c : Char} (member : c ∈ Text.ofNat n) :
    isNumberChar c = true := by
  have digit := Nat.isDigit_of_mem_toDigits (by decide) (by decide) member
  simp [isNumberChar, digit]

theorem isNumberChar_of_mem_positional {digits : Text} {exponent : Int}
    (plain : ∀ c ∈ digits, isNumberChar c = true) :
    ∀ c ∈ Decimal.positional digits exponent, isNumberChar c = true := by
  intro c member
  have zero {n : Nat} (h : c ∈ List.replicate n '0') : isNumberChar c = true :=
    eq_of_mem_replicate h ▸ (by decide)
  cases exponent with
  | ofNat n =>
    simp only [Decimal.positional, mem_append] at member
    rcases member with (member | member) | member
    · exact plain c member
    · exact zero member
    · exact all_eq_true.mp (by decide) c member
  | negSucc n =>
    simp only [Decimal.positional] at member
    split at member
    · simp only [mem_append, mem_singleton] at member
      rcases member with (member | rfl) | member
      · exact plain c (mem_of_mem_take member)
      · decide
      · exact plain c (mem_of_mem_drop member)
    · simp only [mem_append] at member
      rcases member with (member | member) | member
      · exact all_eq_true.mp (by decide) c member
      · exact zero member
      · exact plain c member

theorem isNumberChar_of_mem_scientific {digits : Text} {leading : Int}
    (plain : ∀ c ∈ digits, isNumberChar c = true) :
    ∀ c ∈ Decimal.scientific digits leading, isNumberChar c = true := by
  intro c member
  simp only [Decimal.scientific, mem_append, mem_singleton] at member
  rcases member with (((member | member) | rfl) | member) | member
  · exact plain c (mem_of_mem_take member)
  · split at member
    · exact absurd member not_mem_nil
    · rcases mem_cons.mp member with rfl | member
      · decide
      · exact plain c (mem_of_mem_drop member)
  · decide
  · split at member <;> exact mem_singleton.mp member ▸ (by decide)
  · exact isNumberChar_of_mem_ofNat member

theorem isNumberChar_of_mem_magnitude {digits : Text} (exponent leading : Int)
    (plain : ∀ c ∈ digits, isNumberChar c = true) (zero near : Prop) [Decidable zero]
    [Decidable near] :
    ∀ c ∈ (if zero then "0.0".toList else if near then Decimal.positional digits exponent
      else Decimal.scientific digits leading), isNumberChar c = true := by
  intro c member
  split at member
  · exact all_eq_true.mp (by decide) c member
  · split at member
    · exact isNumberChar_of_mem_positional plain c member
    · exact isNumberChar_of_mem_scientific plain c member

theorem isNumberChar_of_mem_render {layout : Decimal.Layout} {x : Binary64} :
    ∀ c ∈ Decimal.render layout x, isNumberChar c = true := by
  have digits : ∀ c ∈ Text.ofNat (Decimal.dropZeros 17 (Decimal.shortest x)).digits,
      isNumberChar c = true := fun c => isNumberChar_of_mem_ofNat
  intro c member
  simp only [Decimal.render] at member
  split at member
  · rcases mem_cons.mp member with rfl | member
    · decide
    · exact isNumberChar_of_mem_magnitude _ _ digits _ _ c member
  · exact isNumberChar_of_mem_magnitude _ _ digits _ _ c member

theorem Number.isNumberChar_of_mem_render (n : Number) :
    ∀ c ∈ n.render, isNumberChar c = true := by
  intro c member
  cases n with
  | float x => exact Json.isNumberChar_of_mem_render c member
  | integer i =>
    cases i with
    | ofNat n => exact isNumberChar_of_mem_ofNat member
    | negSucc n =>
      rcases mem_cons.mp member with rfl | member
      · decide
      · exact isNumberChar_of_mem_ofNat member

/-- The pieces of printed values that are always the same. -/
def words : List Text :=
  ["null", "true", "false", ": ", "[]", "\x7b\x7d"]

/-- A property that appending keeps, and that the pieces of printed values have. -/
structure Pieces (P : Text → Prop) : Prop where
  append : ∀ {a b : Text}, P a → P b → P (a ++ b)
  nil : P []
  word : ∀ text ∈ words, P text
  number : ∀ n : Number, P n.render
  quoted : ∀ text, P (quote text)
  opening : ∀ depth, ∀ c ∈ ['[', '\x7b', ','], P (c :: newLine (depth + 1))
  closing : ∀ depth, ∀ c ∈ [']', '\x7d'], P (newLine depth ++ [c])

namespace Pieces

variable {P : Text → Prop}

theorem block (pieces : Pieces P) {opening closing : Char} (empty : P [opening, closing])
    (ho : opening ∈ ['[', '\x7b', ',']) (hc : closing ∈ [']', '\x7d']) (depth : Nat)
    {items : List Text} (hi : ∀ item ∈ items, P item) :
    P (Json.block opening closing depth items) := by
  have comma := pieces.opening depth ',' (by decide)
  rw [Json.block]
  split
  · exact empty
  · have joined := intercalate_of_append pieces.nil (fun _ _ => pieces.append) comma hi
    rw [append_assoc]
    have front := pieces.append (pieces.opening depth _ ho) joined
    exact pieces.append front (pieces.closing depth _ hc)

mutual

/-- The property holds of printed values. -/
theorem prettyAt (pieces : Pieces P) (depth : Nat) : ∀ value, P (Json.prettyAt depth value)
  | .null => pieces.word "null" (by decide)
  | .bool true => pieces.word "true" (by decide)
  | .bool false => pieces.word "false" (by decide)
  | .number n => pieces.number n
  | .string s => pieces.quoted s
  | .array items =>
    pieces.block (pieces.word "[]" (by decide)) (by decide) (by decide) depth
      (pieces.prettyItems (depth + 1) items)
  | .object members =>
    pieces.block (pieces.word "\x7b\x7d" (by decide)) (by decide) (by decide) depth
      (pieces.prettyMembers (depth + 1) members)

theorem prettyItems (pieces : Pieces P) (depth : Nat) :
    ∀ items, ∀ text ∈ Json.prettyItems depth items, P text
  | [], text, member => absurd member not_mem_nil
  | item :: items, text, member => by
    rcases mem_cons.mp member with rfl | member
    · exact pieces.prettyAt depth item
    · exact pieces.prettyItems depth items text member

theorem prettyMembers (pieces : Pieces P) (depth : Nat) :
    ∀ members, ∀ text ∈ Json.prettyMembers depth members, P text
  | [], text, member => absurd member not_mem_nil
  | (key, value) :: members, text, member => by
    rcases mem_cons.mp member with rfl | member
    · have colon := pieces.word ": " (by decide)
      exact pieces.append (pieces.append (pieces.quoted key) colon) (pieces.prettyAt depth value)
    · exact pieces.prettyMembers depth members text member

end

end Pieces

/-- A printed text: without carriage returns, and no line of it ends in a backslash. -/
structure Printed (text : Text) : Prop where
  returns : '\r' ∉ text
  uncontinued : Uncontinued text

namespace Printed

theorem append {a b : Text} (ha : Printed a) (hb : Printed b) : Printed (a ++ b) :=
  ⟨by simp [ha.returns, hb.returns], ha.uncontinued.append hb.uncontinued⟩

theorem of_chars {text : Text} (plain : text.all (fun c => c ≠ '\r' && c ≠ '\\') = true) :
    Printed text := by
  have each := all_eq_true.mp plain
  exact ⟨fun inside => absurd (each _ inside) (by decide),
    .of_plain fun inside => absurd (each _ inside) (by decide)⟩

theorem number (n : Number) : Printed n.render := by
  refine of_chars (all_eq_true.mpr fun c member => ?_)
  have plain := n.isNumberChar_of_mem_render c member
  by_contra other
  have either : c = '\r' ∨ c = '\\' := by simpa [or_iff_not_imp_left] using other
  rcases either with rfl | rfl <;> exact absurd plain (by decide)

/-- Neither line feeds nor carriage returns are written as they are. -/
theorem ne_of_mem_escape {c d : Char} (member : d ∈ escape c) : d ≠ '\n' ∧ d ≠ '\r' := by
  have digits : ∀ n < 16, hexDigit n ≠ '\n' ∧ hexDigit n ≠ '\r' := by decide
  have literal {text : Text} (each : text.all (fun d => d ≠ '\n' && d ≠ '\r') = true)
      (h : d ∈ text) : d ≠ '\n' ∧ d ≠ '\r' := by simpa using all_eq_true.mp each d h
  rw [escape] at member
  split at member
  · exact literal (by decide) member
  split at member
  · exact literal (by decide) member
  split at member
  · exact literal (by decide) member
  split at member
  · exact literal (by decide) member
  split at member
  · exact literal (by decide) member
  split at member
  · exact literal (by decide) member
  split at member
  · exact literal (by decide) member
  split at member
  · next small =>
    rw [mem_append, mem_cons, mem_singleton] at member
    rcases member with member | rfl | rfl
    · exact literal (by decide) member
    · exact digits _ (by omega)
    · exact digits _ (by omega)
  · next feed ret _ _ _ _ =>
    rw [mem_singleton] at member
    exact member ▸ ⟨feed, ret⟩

theorem ne_of_mem_quote {text : Text} {d : Char} (member : d ∈ quote text) :
    d ≠ '\n' ∧ d ≠ '\r' := by
  rw [quote, cons_append, mem_cons, mem_append, mem_singleton,
    mem_flatMap] at member
  rcases member with rfl | ⟨c, -, member⟩ | rfl
  · decide
  · exact ne_of_mem_escape member
  · decide

theorem quoted (text : Text) : Printed (quote text) := by
  refine ⟨fun inside => (ne_of_mem_quote inside).2 rfl,
    .of_line (fun inside => (ne_of_mem_quote inside).1 rfl) ?_⟩
  rw [quote, List.getLast?_concat]
  decide

theorem newLine (depth : Nat) : Printed (Json.newLine depth) := by
  refine of_chars (all_eq_true.mpr fun c member => ?_)
  rcases mem_cons.mp member with rfl | member
  · decide
  · exact eq_of_mem_replicate member ▸ (by decide)

theorem pieces : Pieces Printed where
  append := append
  nil := of_chars (by decide)
  word := by
    have each : words.all (fun text => text.all fun c => c ≠ '\r' && c ≠ '\\') = true := by decide
    exact fun text member => of_chars (all_eq_true.mp each text member)
  number := number
  quoted := quoted
  opening depth c member := by
    have plain : ['[', '\x7b', ','].all
        (fun c => [c].all fun c => c ≠ '\r' && c ≠ '\\') = true := by decide
    exact (of_chars (all_eq_true.mp plain c member)).append (newLine (depth + 1))
  closing depth c member := by
    have plain : [']', '\x7d'].all
        (fun c => [c].all fun c => c ≠ '\r' && c ≠ '\\') = true := by decide
    exact (newLine depth).append (of_chars (all_eq_true.mp plain c member))

theorem prettyAt (depth : Nat) (value : Json) : Printed (Json.prettyAt depth value) :=
  pieces.prettyAt depth value

end Printed

end ComponentPack.Json
