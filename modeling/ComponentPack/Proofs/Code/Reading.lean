import Mathlib
import ComponentPack.Proofs.Code.Written

/-!
How the scanner reads the parts of code: which branch a first character takes, how the insides of
literals and regular expressions are read to their ends, and what a slash means after a text.
-/

set_option autoImplicit false

namespace ComponentPack.Code

open List Text

variable {c quote : Char} {before : Text}

namespace Lexeme

/-- What holds of each of the three quotes holds of every quote. -/
theorem of_isQuote (p : Char → Bool) (each : ['"', '\'', '\x60'].all p = true)
    (quote : isQuote c = true) : p c = true :=
  List.all_eq_true.mp each c (by simpa [isQuote, or_assoc] using quote)

theorem isAsciiBlank_of_isWordChar (inside : isWordChar c = true) :
    Text.isAsciiBlank c = false := by
  by_contra blank
  rw [Bool.not_eq_false] at blank
  have outside := Text.of_isAsciiBlank (!isWordChar ·) (by decide) blank
  simp [inside] at outside

theorem isWordChar_of_isWordStart (begins : isWordStart c = true) : isWordChar c = true := by
  simp only [isWordStart, isWordChar, Char.isAlphanum, Bool.or_eq_true] at begins ⊢
  tauto

theorem isWordStart_of_isWordChar (inside : isWordChar c = true) (letter : ¬ c.isDigit = true) :
    isWordStart c = true := by
  simp only [isWordStart, isWordChar, Char.isAlphanum, Bool.or_eq_true] at inside ⊢
  tauto

theorem isWordChar_of_isDigit (digit : c.isDigit = true) : isWordChar c = true := by
  simp [isWordChar, Char.isAlphanum, digit]

theorem toNat_of_isWordChar (inside : isWordChar c = true) :
    (48 ≤ c.toNat ∧ c.toNat ≤ 57) ∨ (65 ≤ c.toNat ∧ c.toNat ≤ 90) ∨
      (97 ≤ c.toNat ∧ c.toNat ≤ 122) ∨ c.toNat = 95 ∨ c.toNat = 36 := by
  simp only [isWordChar, Char.isAlphanum, Char.isAlpha, Char.isUpper, Char.isLower, Char.isDigit,
    Bool.or_eq_true, Bool.and_eq_true, decide_eq_true_eq, beq_iff_eq, UInt32.le_iff_toNat_le,
    ge_iff_le] at inside
  change ((((65 ≤ c.toNat ∧ c.toNat ≤ 90) ∨ (97 ≤ c.toNat ∧ c.toNat ≤ 122)) ∨
    (48 ≤ c.toNat ∧ c.toNat ≤ 57)) ∨ c = '_') ∨ c = '$' at inside
  rcases inside with (inside | rfl) | rfl
  · omega
  · decide
  · decide

/-- A character that begins neither a literal nor a comment, nor a word or a number, is a symbol. -/
theorem next_symbol (inert : isQuote c = false) (slash : c ≠ '/') (outside : isWordChar c = false)
    (before rest : Text) : next before c rest = (symbol c, rest) := by
  have quote : ¬ (c = '"' ∨ c = '\'' ∨ c = '\x60') := by
    simpa [isQuote, not_or, and_assoc] using inert
  have digit : ¬ c.isDigit = true := fun digit => by
    rw [isWordChar_of_isDigit digit] at outside
    exact Bool.noConfusion outside
  have start : ¬ isWordStart c = true := fun start => by
    rw [isWordChar_of_isWordStart start] at outside
    exact Bool.noConfusion outside
  rw [next, if_neg quote, if_neg slash, if_neg digit, if_neg start]

theorem next_slash (before rest : Text) : next before '/' rest = atSlash before rest := by
  rw [next, if_neg (by decide), if_pos rfl]

theorem next_quote (opens : isQuote quote = true) (before rest : Text) :
    next before quote rest =
      (quoted (quote :: (literalTail quote rest).1), (literalTail quote rest).2) := by
  have quote : quote = '"' ∨ quote = '\'' ∨ quote = '\x60' := by
    simpa [isQuote, or_assoc] using opens
  rw [next, if_pos quote]

theorem isQuote_eq_false (inside : isWordChar c = true) : isQuote c = false := by
  by_contra quote
  rw [Bool.not_eq_false] at quote
  have outside := of_isQuote (!isWordChar ·) (by decide) quote
  simp [inside] at outside

/-- A character of words is read as the beginning of a number or of a word. -/
theorem next_wordChar (inside : isWordChar c = true) (before rest : Text) :
    next before c rest =
      (if c.isDigit then number (c :: rest.takeWhile isWordChar)
        else ofWord before (c :: rest.takeWhile isWordChar), rest.dropWhile isWordChar) := by
  have quote : ¬ (c = '"' ∨ c = '\'' ∨ c = '\x60') := by
    simpa [isQuote, not_or, and_assoc] using isQuote_eq_false inside
  have slash : c ≠ '/' := by
    rintro rfl
    exact absurd inside (by decide)
  rw [next, if_neg quote, if_neg slash]
  by_cases digit : c.isDigit = true
  · rw [if_pos digit, if_pos digit]
  · rw [if_neg digit, if_neg digit, if_pos (isWordStart_of_isWordChar inside digit)]

theorem isDigit_eq_false_of_isWordStart (begins : isWordStart c = true) : c.isDigit = false := by
  by_contra digit
  rw [Bool.not_eq_false] at digit
  simp only [isWordStart, Bool.or_eq_true, beq_iff_eq] at begins
  rcases begins with (letter | rfl) | rfl
  · simp only [Char.isAlpha, Char.isUpper, Char.isLower, Char.isDigit, Bool.or_eq_true,
      Bool.and_eq_true, decide_eq_true_eq, ge_iff_le, UInt32.le_iff_toNat_le] at letter digit
    simp at letter digit
    omega
  · exact absurd digit (by decide)
  · exact absurd digit (by decide)

theorem literalTail_quote (quote : Char) (rest : Text) :
    literalTail quote (quote :: rest) = ([quote], rest) := by
  rw [literalTail.eq_def]
  simp

theorem literalTail_escape (single : quote ≠ '\\') (c : Char) (rest : Text) :
    literalTail quote ('\\' :: c :: rest) =
      ('\\' :: c :: (literalTail quote rest).1, (literalTail quote rest).2) := by
  rw [literalTail.eq_def]
  simp [single.symm]

theorem literalTail_plain (inner : c ≠ quote) (single : c ≠ '\\') (rest : Text) :
    literalTail quote (c :: rest) =
      (c :: (literalTail quote rest).1, (literalTail quote rest).2) := by
  rw [literalTail.eq_def]
  simp [inner, single]

theorem literalTail_body (single : quote ≠ '\\') {body : Text} (closed : LiteralBody quote body)
    (rest : Text) : literalTail quote (body ++ quote :: rest) = (body ++ [quote], rest) := by
  induction closed with
  | done => exact literalTail_quote quote rest
  | plain inner plain _ ih =>
    rw [cons_append, literalTail_plain inner plain, ih]
    rfl
  | escaped c _ ih =>
    rw [cons_append, cons_append, literalTail_escape single, ih]
    rfl

theorem regexTail?_escape (inClass : Bool) (c : Char) (rest : Text) :
    regexTail? inClass ('\\' :: c :: rest) =
      (regexTail? inClass rest).map fun (span, after) => ('\\' :: c :: span, after) := by
  rw [regexTail?.eq_def]
  simp

theorem regexTail?_slash (rest : Text) :
    regexTail? false ('/' :: rest) =
      some ('/' :: rest.takeWhile isWordChar, rest.dropWhile isWordChar) := by
  rw [regexTail?.eq_def]
  simp

theorem regexTail?_plain {inClass : Bool} (single : c ≠ '\\') (line : c ≠ '\n')
    (inner : c = '/' → inClass = true) (rest : Text) :
    regexTail? inClass (c :: rest) =
      (regexTail? (classAfter inClass c) rest).map fun (span, after) => (c :: span, after) := by
  have inside : ¬ (c = '/' ∧ (!inClass) = true) := fun ⟨slash, outside⟩ => by
    rw [inner slash] at outside
    exact Bool.noConfusion outside
  rw [regexTail?.eq_def]
  dsimp only
  rw [if_neg single, if_neg line, if_neg inside]

theorem regexTail?_class {inside : Text} (closed : ClassBody inside) (rest : Text) :
    regexTail? true (inside ++ ']' :: rest) =
      (regexTail? false rest).map fun (span, after) => (inside ++ ']' :: span, after) := by
  induction closed with
  | done => exact regexTail?_plain (by decide) (by decide) (by decide) rest
  | @plain c inside single line inner _ ih =>
    have still : classAfter true c = true := by simp [classAfter, inner]
    rw [cons_append, regexTail?_plain single line (fun _ => rfl), still, ih, Option.map_map]
    rfl
  | escaped c _ ih =>
    rw [cons_append, cons_append, regexTail?_escape, ih, Option.map_map]
    rfl

theorem regexTail?_body {body : Text} (closed : RegexBody body) (rest : Text) :
    regexTail? false (body ++ rest) =
      (regexTail? false rest).map fun (span, after) => (body ++ span, after) := by
  induction closed with
  | done => exact Option.map_id'.symm
  | @plain c body single line inner outside _ ih =>
    have still : classAfter false c = false := by simp [classAfter, outside]
    rw [cons_append, regexTail?_plain single line (absurd · inner), still, ih, Option.map_map]
    rfl
  | escaped c _ ih =>
    rw [cons_append, cons_append, regexTail?_escape, ih, Option.map_map]
    rfl
  | @bracketed inside body brackets _ ih =>
    rw [append_assoc, cons_append, cons_append,
      regexTail?_plain (by decide) (by decide) (by decide)]
    change (regexTail? true (inside ++ ']' :: (body ++ rest))).map _ = _
    rw [regexTail?_class brackets, ih, Option.map_map, Option.map_map]
    refine congrArg (Option.map · (regexTail? false rest)) (funext fun pair => ?_)
    simp

theorem regexTail?_flags {flags rest : Text} (chars : ∀ c ∈ flags, isWordChar c = true)
    (stops : ∀ c ∈ rest.head?, isWordChar c = false) :
    regexTail? false ('/' :: (flags ++ rest)) = some ('/' :: flags, rest) := by
  rw [regexTail?_slash, takeWhile_append_eq chars stops, dropWhile_append_eq chars stops]

theorem opensRegex_of_blank (blank : ∀ c ∈ before, isAsciiBlank c = true) :
    opensRegex before.reverse = true := by
  have nothing : before.reverse.dropWhile isAsciiBlank = [] := by
    rw [dropWhile_eq_nil_iff]
    intro c member
    exact blank c (mem_reverse.mp member)
  rw [opensRegex, nothing]

theorem opensRegex_of_word {word : Text} (ends : EndsWithWord before word) :
    opensRegex before.reverse = regexKeywords.contains word := by
  obtain ⟨front, blanks, rfl, nonempty, blank, chars, stops⟩ := ends
  have backwards : ∀ c ∈ word.reverse, isWordChar c = true := fun c member =>
    chars c (mem_reverse.mp member)
  have outside : ∀ c ∈ front.reverse.head?, isWordChar c = false := by
    rw [List.head?_reverse]
    exact stops
  obtain ⟨c, others, same⟩ := exists_cons_of_ne_nil (reverse_ne_nil_iff.mpr nonempty)
  have inside : isWordChar c = true := backwards c (by rw [same]; exact mem_cons_self)
  have skipped : ((front ++ word ++ blanks).reverse).dropWhile isAsciiBlank =
      c :: (others ++ front.reverse) := by
    rw [reverse_append, reverse_append, same]
    refine dropWhile_append_eq (fun d member => blank d (mem_reverse.mp member)) ?_
    intro d first
    cases first
    exact isAsciiBlank_of_isWordChar inside
  have run : (c :: (others ++ front.reverse)).takeWhile isWordChar = word.reverse := by
    rw [← cons_append, ← same]
    exact takeWhile_append_eq backwards outside
  rw [opensRegex, skipped]
  simp only [inside, if_true]
  rw [run, reverse_reverse]

theorem opensRegex_of_char (ends : EndsWithChar before c) :
    opensRegex before.reverse = !closers.contains c := by
  obtain ⟨front, blanks, rfl, blank, visible, outside⟩ := ends
  have skipped : ((front ++ c :: blanks).reverse).dropWhile isAsciiBlank =
      c :: front.reverse := by
    rw [reverse_append, reverse_cons, append_assoc]
    refine dropWhile_append_eq (fun d member => blank d (mem_reverse.mp member)) ?_
    intro d first
    cases first
    exact visible
  rw [opensRegex, skipped]
  simp only [outside, closers, contains_cons, contains_nil, Bool.not_or, bne,
    Bool.and_assoc, Bool.not_false, Bool.and_true, Bool.false_eq_true, if_false]

theorem opensRegex_of_beginsExpression (begins : BeginsExpression before) :
    opensRegex before.reverse = true := by
  rcases begins with blank | ⟨word, keyword, ends⟩ | ⟨c, opener, ends⟩
  · exact opensRegex_of_blank blank
  · rw [opensRegex_of_word ends]
    exact elem_eq_true_of_mem keyword
  · rw [opensRegex_of_char ends]
    simpa using opener

theorem opensRegex_of_endsOperand (ends : EndsOperand before) :
    opensRegex before.reverse = false := by
  rcases ends with ⟨word, other, ends⟩ | ⟨c, closer, ends⟩
  · rw [opensRegex_of_word ends]
    simpa using other
  · rw [opensRegex_of_char ends]
    simpa using closer

/-- How many dots stand at the end of code that is given backwards. -/
def dotRun (before : Text) : Nat := (before.takeWhile (· == '.')).length

theorem namesProperty_replicate {rest : Text} (stops : rest.head? ≠ some '.') (n : Nat) :
    namesProperty (List.replicate n '.' ++ rest) = decide (0 < n ∧ n < 3) := by
  match n with
  | 0 | 1 | 2 =>
    rw [namesProperty.eq_def]
    split
    · simp_all
    · simp_all
    · simp_all
  | n + 3 =>
    have many : ¬ (0 < n + 3 ∧ n + 3 < 3) := by omega
    rw [decide_eq_false many]
    rfl

theorem namesProperty_eq (before : Text) :
    namesProperty before = decide (0 < dotRun before ∧ dotRun before < 3) := by
  have run : before.takeWhile (· == '.') = List.replicate (dotRun before) '.' := by
    refine eq_replicate_iff.mpr ⟨rfl, fun c member => ?_⟩
    simpa using mem_takeWhile_imp member
  have stops : (before.dropWhile (· == '.')).head? ≠ some '.' := by
    intro first
    have other := stops_dropWhile before '.' first
    exact Bool.noConfusion other
  have split : List.replicate (dotRun before) '.' ++ before.dropWhile (· == '.') = before := by
    rw [← run]
    exact takeWhile_append_dropWhile
  conv_lhs => rw [← split]
  exact namesProperty_replicate stops (dotRun before)

theorem dotRun_cons (c : Char) (before : Text) :
    dotRun (c :: before) = if c = '.' then dotRun before + 1 else 0 := by
  by_cases dot : c = '.'
  · rw [if_pos dot, dotRun, takeWhile_cons_of_pos (by simpa using dot), length_cons]
    rfl
  · rw [if_neg dot, dotRun, takeWhile_cons_of_neg (by simpa using dot), length_nil]

theorem dotRun_reverse_append {text : Text} (nonempty : text ≠ []) (free : '.' ∉ text)
    (before : Text) : dotRun (text.reverse ++ before) = 0 := by
  obtain ⟨c, backwards, same⟩ := exists_cons_of_ne_nil (reverse_ne_nil_iff.mpr nonempty)
  have other : c ≠ '.' := by
    rintro rfl
    exact free (mem_reverse.mp (same ▸ mem_cons_self))
  rw [same, cons_append, dotRun_cons, if_neg other]

end Lexeme

end ComponentPack.Code
