import ComponentPack.Number.Written
import ComponentPack.Proofs.Text.Occurrence
import Mathlib.Data.List.TakeWhile

/-!
The value of a string literal of script code. A literal runs to the next quote of its kind that
is not escaped, and it stays on its line: a line feed or a carriage return stands in it only after a
backslash, where it adds nothing to the value. The value is a row of code units of sixteen bits.
-/

set_option autoImplicit false

namespace ComponentPack.Code

open Option

variable {value : List UInt16} {text after rest : Text} {strict : Bool} {c quote : Char}

/-- The code units of a code point. Those beyond sixteen bits have a pair of surrogates. -/
def pointUnits (point : Nat) : List UInt16 :=
  if point < 0x10000 then [UInt16.ofNat point]
  else
    [UInt16.ofNat (0xD800 + (point - 0x10000) / 0x400),
      UInt16.ofNat (0xDC00 + (point - 0x10000) % 0x400)]

/-- The code units of a text. -/
def units (text : Text) : List UInt16 := text.flatMap fun c => pointUnits c.toNat

namespace StringLiteral

/-- The characters that end a line. -/
def endsLine (c : Char) : Bool := c == '\n' || c == '\r' || c == '\u2028' || c == '\u2029'

/-- The character that a single one stands for after a backslash. -/
def meant (c : Char) : Char :=
  match c with
  | 'b' => '\x08'
  | 't' => '\t'
  | 'n' => '\n'
  | 'v' => '\x0b'
  | 'f' => '\x0c'
  | 'r' => '\r'
  | c => c

def hex? (digits : Text) : Option Nat :=
  if !digits.isEmpty && digits.all (Scalar.isDigit 16) then some (Scalar.ofDigits 16 digits)
  else none

/-- The escape after `\x`: two digits of a code unit. -/
def hexEscape? : Text → Option (List UInt16 × Text)
  | a :: b :: rest => (hex? [a, b]).map fun value => ([UInt16.ofNat value], rest)
  | _ => none

/-- The escape after `\u`: four digits of a code unit, or a code point in braces. -/
def unicodeEscape? : Text → Option (List UInt16 × Text)
  | '\x7b' :: rest =>
    match Text.cut? ['\x7d'] rest with
    | some (digits, after) =>
      ((hex? digits).filter (· ≤ 0x10FFFF)).map fun value => (pointUnits value, after)
    | none => none
  | a :: b :: c :: d :: rest =>
    (hex? [a, b, c, d]).map fun value => ([UInt16.ofNat value], rest)
  | _ => none

/-- The escape at a digit. In strict code only a zero that no digit follows is one. Elsewhere up to
three octal digits make a code unit below 256, and `8` and `9` stand for themselves. -/
def digitEscape? (strict : Bool) (c : Char) (rest : Text) : Option (List UInt16 × Text) :=
  if strict then
    if c = '0' ∧ !rest.head?.any Char.isDigit then some ([0], rest) else none
  else if Scalar.isDigit 8 c then
    let others := (rest.take (if c ≤ '3' then 2 else 1)).takeWhile (Scalar.isDigit 8)
    some ([UInt16.ofNat (Scalar.ofDigits 8 (c :: others))], rest.drop others.length)
  else some (pointUnits c.toNat, rest)

/-- What stands after a backslash: the value of the escape, and the rest. -/
def escape? (strict : Bool) : Text → Option (List UInt16 × Text)
  | [] => none
  | '\r' :: '\n' :: rest => some ([], rest)
  | c :: rest =>
    if endsLine c then some ([], rest)
    else if c = 'x' then hexEscape? rest
    else if c = 'u' then unicodeEscape? rest
    else if c.isDigit then digitEscape? strict c rest
    else some (pointUnits (meant c).toNat, rest)

/-- What an escape takes after its backslash: one character, after which digits and braces may
stand, or the two that end a line together. -/
inductive Escape : Text → Prop where
  | char (c : Char) {run : Text}
      (digits : ∀ d ∈ run, d = '\x7b' ∨ d = '\x7d' ∨ Scalar.isDigit 16 d = true) : Escape (c :: run)
  | lines : Escape ['\r', '\n']

theorem Escape.single (c : Char) : Escape [c] := .char c (by simp)

theorem isDigit_of_hex? {digits : Text} {value : Nat} (found : hex? digits = some value) :
    ∀ d ∈ digits, Scalar.isDigit 16 d = true := by
  unfold hex? at found
  split at found
  · next all =>
    rw [Bool.and_eq_true] at all
    exact List.all_eq_true.mp all.2
  · cases found

theorem exists_of_unicodeEscape? (found : unicodeEscape? text = some (value, after)) :
    ∃ run, text = run ++ after ∧
      ∀ d ∈ run, d = '\x7b' ∨ d = '\x7d' ∨ Scalar.isDigit 16 d = true := by
  unfold unicodeEscape? at found
  split at found
  · split at found
    · next rest digits beyond cut =>
      obtain ⟨point, bounded, pair⟩ := map_eq_some_iff.mp found
      cases pair
      obtain ⟨read, -⟩ := filter_eq_some_iff.mp bounded
      obtain rfl := Text.eq_append_of_cut? cut
      refine ⟨'\x7b' :: (digits ++ ['\x7d']), by simp, ?_⟩
      intro d member
      simp only [List.mem_cons, List.mem_append, List.not_mem_nil, or_false] at member
      rcases member with brace | member | brace
      · exact .inl brace
      · exact .inr (.inr (isDigit_of_hex? read d member))
      · exact .inr (.inl brace)
    · cases found
  · next a b c d rest _ =>
    obtain ⟨unit, read, pair⟩ := map_eq_some_iff.mp found
    cases pair
    exact ⟨[a, b, c, d], rfl, fun d member => .inr (.inr (isDigit_of_hex? read d member))⟩
  · cases found

theorem exists_of_digitEscape? (found : digitEscape? strict c text = some (value, after)) :
    ∃ run, text = run ++ after ∧ ∀ d ∈ run, Scalar.isDigit 8 d = true := by
  unfold digitEscape? at found
  split at found
  · split at found
    · cases found
      exact ⟨[], rfl, by simp⟩
    · cases found
  · split at found
    · cases found
      refine ⟨_, (List.prefix_iff_eq_append.mp ?_).symm,
        fun d member => List.mem_takeWhile_imp member⟩
      exact (List.takeWhile_prefix _).trans (List.take_prefix _ _)
    · cases found
      exact ⟨[], rfl, by simp⟩

theorem isDigit_hex_of_octal (digit : Scalar.isDigit 8 c = true) : Scalar.isDigit 16 c = true := by
  simp only [Scalar.isDigit, Scalar.digit?, isSome_filter, any_eq_true,
    decide_eq_true_eq] at digit ⊢
  obtain ⟨value, read, small⟩ := digit
  exact ⟨value, read, by omega⟩

/-- An escape is the beginning of what follows its backslash. -/
theorem exists_of_escape? (found : escape? strict text = some (value, after)) :
    ∃ taken, text = taken ++ after ∧ Escape taken := by
  unfold escape? at found
  split at found
  · cases found
  · cases found
    exact ⟨_, rfl, .lines⟩
  · next c rest _ =>
    split_ifs at found
    · cases found
      exact ⟨[c], rfl, .single c⟩
    · unfold hexEscape? at found
      split at found
      · next a b rest _ =>
        obtain ⟨unit, read, pair⟩ := map_eq_some_iff.mp found
        cases pair
        exact ⟨[c, a, b], rfl,
          .char c fun d member => .inr (.inr (isDigit_of_hex? read d member))⟩
      · cases found
    · obtain ⟨run, rfl, digits⟩ := exists_of_unicodeEscape? found
      exact ⟨c :: run, rfl, .char c digits⟩
    · obtain ⟨run, rfl, digits⟩ := exists_of_digitEscape? found
      exact ⟨c :: run, rfl,
        .char c fun d member => .inr (.inr (isDigit_hex_of_octal (digits d member)))⟩
    · cases found
      exact ⟨[c], rfl, .single c⟩

theorem length_le_of_escape? (found : escape? strict text = some (value, after)) :
    after.length ≤ text.length := by
  obtain ⟨taken, rfl, -⟩ := exists_of_escape? found
  exact (List.suffix_append taken after).length_le

/-- A literal after its opening quote: its value, and what follows its closing quote. -/
def body? (strict : Bool) (quote : Char) (text : Text) : Option (List UInt16 × Text) :=
  match text with
  | [] => none
  | c :: rest =>
    if c = quote then some ([], rest)
    else if c = '\\' then
      match _ : escape? strict rest with
      | none => none
      | some (value, after) => (body? strict quote after).map (Prod.map (value ++ ·) id)
    else if c = '\n' ∨ c = '\r' then none
    else (body? strict quote rest).map (Prod.map (pointUnits c.toNat ++ ·) id)
termination_by text.length
decreasing_by
  · exact Nat.lt_succ_of_le (length_le_of_escape? (by assumption))
  · exact Nat.lt_succ_self rest.length

/-- The string literal at the beginning of a text: its value, and what follows it. -/
def read? (strict : Bool) : Text → Option (List UInt16 × Text)
  | [] => none
  | c :: rest => if c = '"' ∨ c = '\'' then body? strict c rest else none

theorem body?_quote (strict : Bool) (quote : Char) (rest : Text) :
    body? strict quote (quote :: rest) = some ([], rest) := by
  rw [body?, if_pos rfl]

theorem body?_plain (inner : c ≠ quote) (single : c ≠ '\\') (inline : c ≠ '\n' ∧ c ≠ '\r')
    (strict : Bool) (rest : Text) :
    body? strict quote (c :: rest) =
      (body? strict quote rest).map (Prod.map (pointUnits c.toNat ++ ·) id) := by
  rw [body?, if_neg inner, if_neg single, if_neg (not_or.mpr inline)]

theorem body?_break (inner : c ≠ quote) (breaks : c = '\n' ∨ c = '\r') (strict : Bool) (rest : Text)
    : body? strict quote (c :: rest) = none := by
  have single : c ≠ '\\' := by
    rintro rfl
    simp at breaks
  rw [body?, if_neg inner, if_neg single, if_pos breaks]

theorem body?_escape (single : quote ≠ '\\') (escape : escape? strict text = some (value, after)) :
    body? strict quote ('\\' :: text) =
      (body? strict quote after).map (Prod.map (value ++ ·) id) := by
  rw [body?, if_neg single.symm, if_pos rfl]
  split
  · next missing => simp [escape] at missing
  · next found =>
    rw [escape] at found
    cases found
    rfl

/-- The inside of a string literal: its quote, a backslash and the end of a line stand only after a
backslash. -/
inductive Body (quote : Char) : Text → Prop where
  | done : Body quote []
  | plain {c : Char} {rest : Text} (inner : c ≠ quote) (single : c ≠ '\\')
      (inline : c ≠ '\n' ∧ c ≠ '\r') : Body quote rest → Body quote (c :: rest)
  | escaped (c : Char) {rest : Text} : Body quote rest → Body quote ('\\' :: c :: rest)
  | continued {rest : Text} : Body quote rest → Body quote ('\\' :: '\r' :: '\n' :: rest)

theorem Body.escape (opens : quote = '"' ∨ quote = '\'') {taken : Text} (escape : Escape taken)
    (body : Body quote rest) : Body quote ('\\' :: (taken ++ rest)) := by
  cases escape with
  | lines => exact .continued body
  | @char c run digits =>
    -- No digit and no brace has a meaning of its own in a literal.
    refine .escaped c ?_
    induction run with
    | nil => exact body
    | cons d run ih =>
      have here := digits d List.mem_cons_self
      have other {e : Char} (brace : e ≠ '\x7b' ∧ e ≠ '\x7d')
          (digit : Scalar.isDigit 16 e = false) : d ≠ e := by
        rintro rfl
        rcases here with rfl | rfl | yes
        · exact brace.1 rfl
        · exact brace.2 rfl
        · rw [digit] at yes
          cases yes
      refine .plain ?_ (other (by decide) (by decide))
        ⟨other (by decide) (by decide), other (by decide) (by decide)⟩
        (ih fun e member => digits e (List.mem_cons_of_mem d member))
      rcases opens with rfl | rfl
      · exact other (by decide) (by decide)
      · exact other (by decide) (by decide)

theorem Body.of_body? (opens : quote = '"' ∨ quote = '\'')
    (read : body? strict quote text = some (value, rest)) :
    ∃ body, text = body ++ quote :: rest ∧ Body quote body := by
  fun_induction body? strict quote text generalizing value rest with
  | case1 | case3 | case5 => cases read
  | case2 tail =>
    cases read
    exact ⟨[], rfl, .done⟩
  | case4 tail unit after found _ ih =>
    obtain ⟨⟨later, beyond⟩, goes, pair⟩ := map_eq_some_iff.mp read
    cases pair
    obtain ⟨body, rfl, form⟩ := ih goes
    obtain ⟨taken, rfl, escape⟩ := exists_of_escape? found
    exact ⟨'\\' :: (taken ++ body), by simp, Body.escape opens escape form⟩
  | case6 c tail inner single inline ih =>
    obtain ⟨⟨later, beyond⟩, goes, pair⟩ := map_eq_some_iff.mp read
    cases pair
    obtain ⟨body, rfl, form⟩ := ih goes
    exact ⟨c :: body, rfl, .plain inner single (not_or.mp inline) form⟩

/-- What is read as a literal has the form of one, with nothing left out. -/
theorem Body.of_read? (read : read? strict (c :: text) = some (value, rest)) :
    ∃ body, text = body ++ c :: rest ∧ Body c body := by
  rw [read?] at read
  split at read
  · next opens => exact Body.of_body? opens read
  · cases read

end StringLiteral

end ComponentPack.Code
