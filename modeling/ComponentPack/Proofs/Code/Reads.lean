import Mathlib
import ComponentPack.Proofs.Code.Reading

/-!
What the scanner cuts off, as a relation between the text before, a lexeme and the text after it.
The relation says of each form of lexeme where it may stand; the scanner cuts off exactly the
lexemes that are so related to their surroundings (`reads_next`, `Reads.next_eq`).
-/

set_option autoImplicit false

namespace ComponentPack.Code.Lexeme

open List Text

variable {body rest others before : Text} {first : Char} {lexeme : Lexeme}

/-- A lexeme stands after the code that is given backwards and before the rest. -/
inductive Reads (before : Text) : Lexeme → Text → Prop where
  | literal {quote : Char} {body : Text} (opens : isQuote quote = true)
      (closed : LiteralBody quote body) (rest : Text) :
      Reads before (.quoted (quote :: (body ++ [quote]))) rest
  | openLiteral {quote : Char} {body : Text} (opens : isQuote quote = true)
      (endless : literalTail quote body = (body, [])) : Reads before (.quoted (quote :: body)) []
  | line {body rest : Text} (inside : '\n' ∉ body) (stops : ∀ c ∈ rest.head?, c = '\n') :
      Reads before (.comment ('/' :: '/' :: body)) rest
  | block {body : Text} (closed : ¬ ['*', '/'] <:+: body) (rest : Text) :
      Reads before (.comment ('/' :: '*' :: (body ++ ['*', '/']))) rest
  | openBlock {body : Text} (endless : ¬ ['*', '/'] <:+: body) :
      Reads before (.comment ('/' :: '*' :: body)) []
  | regex {first : Char} {others flags rest : Text} (expected : opensRegex before = true)
      (closed : RegexBody (first :: others)) (block : first ≠ '*')
      (chars : ∀ c ∈ flags, isWordChar c = true) (stops : ∀ c ∈ rest.head?, isWordChar c = false) :
      Reads before (.regex ('/' :: (first :: others ++ '/' :: flags))) rest
  | slash {rest : Text} (apart : ∀ c ∈ rest.head?, c ≠ '/' ∧ c ≠ '*')
      (bare : opensRegex before = true → regexTail? false rest = none) :
      Reads before (.symbol '/') rest
  | number {first : Char} {others rest : Text} (begins : first.isDigit = true)
      (chars : ∀ c ∈ others, isWordChar c = true) (stops : ∀ c ∈ rest.head?, isWordChar c = false) :
      Reads before (.number (first :: others)) rest
  | word {first : Char} {others rest : Text} {lexeme : Lexeme} (begins : isWordStart first = true)
      (chars : ∀ c ∈ others, isWordChar c = true) (stops : ∀ c ∈ rest.head?, isWordChar c = false)
      (form : lexeme = ofWord before (first :: others)) : Reads before lexeme rest
  | symbol {c : Char} (inert : isQuote c = false) (slash : c ≠ '/') (outside : isWordChar c = false)
      (rest : Text) : Reads before (.symbol c) rest

theorem next_literal {quote : Char} (opens : isQuote quote = true) (closed : LiteralBody quote body)
    (before rest : Text) :
    next before quote (body ++ [quote] ++ rest) =
      (.quoted (quote :: (body ++ [quote])), rest) := by
  have single : quote ≠ '\\' := by
    rintro rfl
    exact absurd opens (by decide)
  rw [next_quote opens, append_assoc, singleton_append,
    literalTail_body single closed]

theorem next_block (closed : ¬ ['*', '/'] <:+: body) (before rest : Text) :
    next before '/' ('*' :: (body ++ ['*', '/']) ++ rest) =
      (.comment ('/' :: '*' :: (body ++ ['*', '/'])), rest) := by
  have cut : Text.cut? ['*', '/'] (body ++ (['*', '/'] ++ rest)) = some (body, rest) :=
    Text.cut?_append_of_borderless _ (borderless_of_take_ne (by decide)) (by simp) closed
  rw [next_slash, cons_append, append_assoc, atSlash, cut]
  rfl

theorem next_line (inside : '\n' ∉ body) (stops : ∀ c ∈ rest.head?, c = '\n') (before : Text) :
    next before '/' ('/' :: body ++ rest) = (.comment ('/' :: '/' :: body), rest) := by
  have run : ∀ c ∈ '/' :: body, decide (c ≠ '\n') = true := by
    intro c member
    rw [decide_eq_true_eq]
    rintro rfl
    rcases mem_cons.mp member with slash | member
    · exact absurd slash (by decide)
    · exact inside member
  have ends : ∀ c ∈ rest.head?, decide (c ≠ '\n') = false := fun c first =>
    decide_eq_false (not_not_intro (stops c first))
  have taken := takeWhile_append_eq run ends
  have left := dropWhile_append_eq run ends
  rw [cons_append] at taken left ⊢
  rw [next_slash, atSlash, taken, left]

theorem next_number (digit : first.isDigit = true) (chars : ∀ c ∈ others, isWordChar c = true)
    (stops : ∀ c ∈ rest.head?, isWordChar c = false) (before : Text) :
    next before first (others ++ rest) = (.number (first :: others), rest) := by
  rw [next_wordChar (isWordChar_of_isDigit digit), if_pos digit,
    takeWhile_append_eq chars stops, dropWhile_append_eq chars stops]

theorem next_word (begins : isWordStart first = true) (chars : ∀ c ∈ others, isWordChar c = true)
    (stops : ∀ c ∈ rest.head?, isWordChar c = false) (before : Text) :
    next before first (others ++ rest) = (ofWord before (first :: others), rest) := by
  have letter : ¬ first.isDigit = true := by
    rw [isDigit_eq_false_of_isWordStart begins]
    exact Bool.false_ne_true
  rw [next_wordChar (isWordChar_of_isWordStart begins), if_neg letter,
    takeWhile_append_eq chars stops, dropWhile_append_eq chars stops]

/-- A regular expression after a text that expects one. -/
theorem next_regex {flags : Text} (closed : RegexBody (first :: others)) (block : first ≠ '*')
    (chars : ∀ c ∈ flags, isWordChar c = true) (stops : ∀ c ∈ rest.head?, isWordChar c = false)
    (expected : opensRegex before = true) :
    next before '/' (first :: others ++ '/' :: flags ++ rest) =
      (.regex ('/' :: (first :: others ++ '/' :: flags)), rest) := by
  have slash : first ≠ '/' := by
    cases closed with
    | plain _ _ inner _ _ => exact inner
    | escaped _ _ => decide
    | bracketed _ _ => decide
  have read : regexTail? false (first :: others ++ '/' :: flags ++ rest) =
      some (first :: others ++ '/' :: flags, rest) := by
    rw [append_assoc, regexTail?_body closed, cons_append,
      regexTail?_flags chars stops]
    rfl
  rw [next_slash, atSlash, expected, if_pos rfl, read]
  · intro tail same
    exact slash (List.cons.inj same).1
  · intro tail same
    exact block (List.cons.inj same).1

/-- A slash that begins no comment and no regular expression stands for itself. -/
theorem next_bareSlash (apart : ∀ c ∈ rest.head?, c ≠ '/' ∧ c ≠ '*')
    (bare : opensRegex before = true → regexTail? false rest = none) :
    next before '/' rest = (.symbol '/', rest) := by
  rw [next_slash, atSlash]
  · split
    · next expected => rw [bare expected]
    · rfl
  · rintro tail rfl
    exact (apart '/' rfl).1 rfl
  · rintro tail rfl
    exact (apart '*' rfl).2 rfl

theorem next_openBlock (endless : ¬ ['*', '/'] <:+: body) (before : Text) :
    next before '/' ('*' :: body) = (.comment ('/' :: '*' :: body), []) := by
  have missing : Text.cut? ['*', '/'] body = none := by
    rw [← Option.not_isSome_iff_eq_none]
    exact mt Text.contains_iff_infix.mp endless
  rw [next_slash, atSlash, missing]

theorem Reads.next_eq (reads : Reads before lexeme rest) :
    ∃ c tail, lexeme.text = c :: tail ∧ next before c (tail ++ rest) = (lexeme, rest) := by
  cases reads with
  | literal opens closed rest => exact ⟨_, _, rfl, next_literal opens closed before rest⟩
  | @openLiteral quote body opens endless =>
    refine ⟨quote, body, rfl, ?_⟩
    rw [next_quote opens, append_nil, endless]
  | line inside stops => exact ⟨_, _, rfl, next_line inside stops before⟩
  | block closed rest => exact ⟨_, _, rfl, next_block closed before rest⟩
  | @openBlock body endless =>
    refine ⟨'/', '*' :: body, rfl, ?_⟩
    rw [append_nil]
    exact next_openBlock endless before
  | regex expected closed block chars stops =>
    exact ⟨_, _, rfl, next_regex closed block chars stops expected⟩
  | slash apart bare => exact ⟨'/', [], rfl, next_bareSlash apart bare⟩
  | number begins chars stops => exact ⟨_, _, rfl, next_number begins chars stops before⟩
  | @word first others rest lexeme begins chars stops form =>
    rw [form, text_ofWord]
    exact ⟨first, others, rfl, next_word begins chars stops before⟩
  | @symbol c inert slash outside rest =>
    exact ⟨c, [], rfl, next_symbol inert slash outside before rest⟩

theorem Reads.scanFrom_eq (reads : Reads before lexeme rest) :
    scanFrom before (lexeme.text ++ rest) =
      lexeme :: scanFrom (lexeme.text.reverse ++ before) rest := by
  obtain ⟨c, tail, text, read⟩ := reads.next_eq
  rw [text, cons_append, scanFrom_cons, read, text]

/-- A literal runs to the end of the code or is closed. -/
theorem literalTail_sound (quote : Char) (text : Text) :
    literalTail quote text = (text, []) ∨
      ∃ body, LiteralBody quote body ∧ (literalTail quote text).1 = body ++ [quote] := by
  fun_induction literalTail quote text with
  | case1 => exact .inl rfl
  | case2 rest => exact .inr ⟨[], .done, rfl⟩
  | case3 => exact .inl rfl
  | case4 c rest span after tail _ ih =>
    rw [tail] at ih
    rcases ih with endless | ⟨body, closed, same⟩
    · cases endless
      exact .inl rfl
    · exact .inr ⟨'\\' :: c :: body, .escaped c closed, congrArg ('\\' :: c :: ·) same⟩
  | case5 c rest inner single span after tail ih =>
    rw [tail] at ih
    rcases ih with endless | ⟨body, closed, same⟩
    · cases endless
      exact .inl rfl
    · exact .inr ⟨c :: body, .plain inner single closed, congrArg (c :: ·) same⟩

/-- A regular expression that begins inside or outside of brackets, up to its closing slash. -/
def RegexTail (inClass : Bool) (body : Text) : Prop :=
  if inClass then
    ∃ inside others, ClassBody inside ∧ RegexBody others ∧ body = inside ++ ']' :: others
  else RegexBody body

theorem RegexTail.escaped {inClass : Bool} (tail : RegexTail inClass body) (c : Char) :
    RegexTail inClass ('\\' :: c :: body) := by
  cases inClass with
  | false => exact RegexBody.escaped c tail
  | true =>
    obtain ⟨inside, others, closed, after, rfl⟩ := tail
    exact ⟨'\\' :: c :: inside, others, .escaped c closed, after, rfl⟩

theorem RegexTail.plain {inClass : Bool} {c : Char} {body : Text} (single : c ≠ '\\')
    (line : c ≠ '\n') (inner : c = '/' → inClass = true)
    (tail : RegexTail (classAfter inClass c) body) : RegexTail inClass (c :: body) := by
  by_cases opening : c = '['
  · subst opening
    obtain ⟨inside, others, closed, after, rfl⟩ := tail
    cases inClass with
    | false => exact RegexBody.bracketed closed after
    | true => exact ⟨'[' :: inside, others, .plain single line (by decide) closed, after, rfl⟩
  · by_cases closing : c = ']'
    · subst closing
      cases inClass with
      | false => exact RegexBody.plain single line (by decide) opening tail
      | true => exact ⟨[], body, .done, tail, rfl⟩
    · rw [classAfter, if_neg opening, if_neg closing] at tail
      cases inClass with
      | false =>
        exact RegexBody.plain single line (fun slash => by simpa using inner slash) opening tail
      | true =>
        obtain ⟨inside, others, closed, after, rfl⟩ := tail
        exact ⟨c :: inside, others, .plain single line closing closed, after, rfl⟩

theorem regexTail?_sound {inClass : Bool} {text span : Text}
    (found : regexTail? inClass text = some (span, rest)) :
    ∃ body flags, RegexTail inClass body ∧ span = body ++ '/' :: flags ∧
      (∀ c ∈ flags, isWordChar c = true) ∧ ∀ c ∈ rest.head?, isWordChar c = false := by
  fun_induction regexTail? inClass text generalizing span rest with
  | case1 => simp at found
  | case2 => simp at found
  | case3 inClass c rest ih =>
    obtain ⟨⟨after, left⟩, tail, pair⟩ := Option.map_eq_some_iff.mp found
    obtain ⟨body, flags, inside, rfl, chars, stops⟩ := ih tail
    cases pair
    exact ⟨'\\' :: c :: body, flags, inside.escaped c, rfl, chars, stops⟩
  | case4 => simp at found
  | case5 inClass c rest _ _ closes =>
    obtain ⟨rfl, outside⟩ := closes
    obtain rfl : inClass = false := by simpa using outside
    cases found
    exact ⟨[], _, RegexBody.done, rfl, fun c member => mem_takeWhile_imp member,
      stops_dropWhile rest⟩
  | case6 inClass c rest single line open_ ih =>
    obtain ⟨⟨after, left⟩, tail, pair⟩ := Option.map_eq_some_iff.mp found
    obtain ⟨body, flags, inside, rfl, chars, stops⟩ := ih tail
    cases pair
    refine ⟨c :: body, flags, inside.plain single line fun slash => ?_, rfl, chars, stops⟩
    simpa [slash] using open_

theorem reads_atSlash (before rest : Text) :
    Reads before (atSlash before rest).1 (atSlash before rest).2 := by
  unfold atSlash
  split
  · next tail =>
    rw [takeWhile_cons_of_pos (by decide), dropWhile_cons_of_pos (by decide)]
    refine .line (fun member => ?_) fun c first => ?_
    · simpa using mem_takeWhile_imp member
    · simpa using stops_dropWhile tail c first
  · next body =>
    split
    · next inner after cut =>
      have free := ((Text.cut?_eq_some_iff (by simp)).mp cut).2
      exact .block (mt (infix_append_dropLast_iff
        (borderless_of_take_ne (by decide)) (by simp)).mpr free) after
    · next missing =>
      refine .openBlock fun occurs => ?_
      have found := Text.contains_iff_infix.mpr occurs
      rw [Text.contains, missing] at found
      exact Bool.noConfusion found
  · next noLine noBlock =>
    have apart : ∀ c ∈ rest.head?, c ≠ '/' ∧ c ≠ '*' := by
      intro c first
      obtain ⟨tail, rfl⟩ := List.head?_eq_some_iff.mp first
      refine ⟨?_, ?_⟩
      · rintro rfl
        exact noLine tail rfl
      · rintro rfl
        exact noBlock tail rfl
    split
    · next expected =>
      split
      · next span after found =>
        obtain ⟨body, flags, closed, rfl, chars, stops⟩ := regexTail?_sound found
        rw [eq_append_of_regexTail? found] at apart
        cases body with
        | nil => exact absurd rfl (apart '/' rfl).1
        | cons first others => exact .regex expected closed (apart first rfl).2 chars stops
      · next missing => exact .slash apart fun _ => missing
    · next operand => exact .slash apart fun expected => absurd expected operand

/-- The scanner cuts off only what may stand there. -/
theorem reads_next (before : Text) (c : Char) (rest : Text) :
    Reads before (next before c rest).1 (next before c rest).2 := by
  by_cases quote : isQuote c = true
  · rw [next_quote quote]
    rcases literalTail_sound c rest with endless | ⟨body, closed, same⟩
    · rw [endless]
      exact .openLiteral quote endless
    · rw [same]
      exact .literal quote closed _
  · by_cases slash : c = '/'
    · rw [slash, next_slash]
      exact reads_atSlash before rest
    · by_cases inside : isWordChar c = true
      · have chars : ∀ d ∈ rest.takeWhile isWordChar, isWordChar d = true := fun d member =>
          mem_takeWhile_imp member
        have stops := stops_dropWhile (p := isWordChar) rest
        rw [next_wordChar inside]
        split
        · next digit => exact .number digit chars stops
        · next letter => exact .word (isWordStart_of_isWordChar inside letter) chars stops rfl
      · rw [next_symbol (Bool.eq_false_iff.mpr quote) slash (Bool.eq_false_iff.mpr inside)]
        exact .symbol (Bool.eq_false_iff.mpr quote) slash (Bool.eq_false_iff.mpr inside) rest

/-- Every scan is a row of such cuts: what the end of the code has, and what each lexeme passes on
to the text before it, holds of all code. -/
theorem scan_induction {motive : Text → Text → Prop} (nil : ∀ before, motive before [])
    (step : ∀ before lexeme rest, Reads before lexeme rest →
      motive (lexeme.text.reverse ++ before) rest → motive before (lexeme.text ++ rest))
    (before code : Text) : motive before code := by
  fun_induction scanFrom before code with
  | case1 => exact nil _
  | case2 before c rest found ih =>
    rw [← next_append before c rest]
    exact step before found.1 found.2 (reads_next before c rest) ih

theorem Reads.text_ne_nil (reads : Reads before lexeme rest) : lexeme.text ≠ [] := by
  obtain ⟨c, tail, text, -⟩ := reads.next_eq
  rw [text]
  exact cons_ne_nil c tail

end ComponentPack.Code.Lexeme
