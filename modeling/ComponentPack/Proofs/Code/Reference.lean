import Mathlib
import ComponentPack.Proofs.Code.Reads

/-!
The scanner reads written tokens back: each one, in a place for it, is cut off as one lexeme (a line
comment and its line feed as two), and the free words among them are the substitution points of the
code.
-/

set_option autoImplicit false

namespace ComponentPack.Code

open List Lexeme

open Lexeme (isWordStart isWordChar)

namespace Token

/-- The lexemes that a token is read as, after the code that is given backwards. -/
def lexemes (before : Text) : Token → List Lexeme
  | quoted quote body _ _ => [.quoted (quote :: body ++ [quote])]
  | block body _ => [.comment (['/', '*'] ++ body ++ ['*', '/'])]
  | line body _ => [.comment (['/', '/'] ++ body), .symbol '\n']
  | word first others _ _ => [Lexeme.ofWord before (first :: others)]
  | number first others _ _ => [.number (first :: others)]
  | other c _ _ _ => [.symbol c]
  | regex first others flags _ _ _ => [.regex ('/' :: first :: others ++ '/' :: flags)]
  | division => [.symbol '/']

/-- Only words and numbers begin with a character of words. -/
theorem isWordChar_head?_text {token : Token} (mark : token.isName = false) :
    ∀ c ∈ token.text.head?, isWordChar c = false := by
  intro c first
  cases token with
  | quoted quote body opens closed =>
    cases first
    by_contra inside
    rw [isQuote_eq_false (Bool.not_eq_false _ ▸ inside)] at opens
    exact Bool.noConfusion opens
  | block | line | regex | division =>
    cases first
    decide
  | word | number => exact Bool.noConfusion mark
  | other d inert slash outside =>
    cases first
    exact outside

theorem text_ne_nil (token : Token) : token.text ≠ [] := by
  cases token <;> simp [text]

end Token

theorem textOf_cons (token : Token) (tokens : List Token) :
    textOf (token :: tokens) = token.text ++ textOf tokens :=
  flatMap_cons

theorem isWordChar_head?_textOf {following : List Token}
    (apart : ∀ token ∈ following.head?, token.isName = false) :
    ∀ c ∈ (textOf following).head?, isWordChar c = false := by
  intro c first
  cases following with
  | nil => cases first
  | cons token following =>
    rw [textOf_cons, head?_append_of_ne_nil _ token.text_ne_nil] at first
    exact Token.isWordChar_head?_text (apart token rfl) c first

/-- A token in a place for it is read as its own lexemes. -/
theorem scanFrom_token {before : Text} {token : Token} {following : List Token}
    (expected : token.Expected before) (separated : token.Separated following) :
    Lexeme.scanFrom before.reverse (token.text ++ textOf following) =
      token.lexemes before.reverse ++
        Lexeme.scanFrom (before ++ token.text).reverse (textOf following) := by
  rw [reverse_append]
  cases token with
  | quoted quote body opens closed =>
    exact (Lexeme.Reads.literal opens closed (textOf following)).scanFrom_eq
  | block body closed => exact (Lexeme.Reads.block closed (textOf following)).scanFrom_eq
  | line body closed =>
    -- The line feed is a lexeme of its own.
    have comment : Lexeme.Reads before.reverse (.comment ('/' :: '/' :: body))
        ('\n' :: textOf following) := .line closed (by simp)
    have feed (before : Text) : Lexeme.scanFrom before ('\n' :: textOf following) =
        .symbol '\n' :: Lexeme.scanFrom ('\n' :: before) (textOf following) :=
      (Lexeme.Reads.symbol (by decide) (by decide) (by decide) (textOf following)).scanFrom_eq
    have read := comment.scanFrom_eq
    rw [feed] at read
    simpa [Token.text, Token.lexemes, Lexeme.text] using read
  | word first others begins chars =>
    have read := (Lexeme.Reads.word begins chars (isWordChar_head?_textOf separated)
      (Eq.refl (Lexeme.ofWord before.reverse _))).scanFrom_eq
    rwa [text_ofWord] at read
  | number first others begins chars =>
    exact (Lexeme.Reads.number begins chars (isWordChar_head?_textOf separated)).scanFrom_eq
  | other c inert slash outside =>
    exact (Lexeme.Reads.symbol inert slash outside (textOf following)).scanFrom_eq
  | regex first others flags closed block chars =>
    exact (Lexeme.Reads.regex (opensRegex_of_beginsExpression expected) closed block chars
      (isWordChar_head?_textOf separated)).scanFrom_eq
  | division =>
    have operand := opensRegex_of_endsOperand expected
    exact (Lexeme.Reads.slash separated (fun opens => by simp [operand] at opens)).scanFrom_eq

theorem Token.getLast?_text {token : Token} (other : token.isDot = false) :
    token.text.getLast? ≠ some '.' := by
  intro last
  have member : '.' ∈ token.text := mem_of_getLast? last
  cases token with
  | quoted quote body opens closed =>
    rw [text, getLast?_append_of_ne_nil _ (by simp)] at last
    cases last
    exact absurd opens (by decide)
  | block body closed =>
    rw [text, getLast?_append_of_ne_nil _ (by simp)] at last
    exact absurd last (by decide)
  | line body closed =>
    rw [text, getLast?_append_of_ne_nil _ (by simp)] at last
    exact absurd last (by decide)
  | word first others begins chars =>
    rcases mem_cons.mp member with rfl | member
    · exact absurd begins (by decide)
    · exact absurd (chars _ member) (by decide)
  | number first others begins chars =>
    rcases mem_cons.mp member with rfl | member
    · exact absurd begins (by decide)
    · exact absurd (chars _ member) (by decide)
  | other c inert slash outside =>
    cases last
    exact Bool.noConfusion other
  | regex first others flags closed block chars =>
    rw [text, getLast?_append_of_ne_nil _ (by simp)] at last
    rcases mem_cons.mp (mem_of_getLast? last) with slash | member
    · exact absurd slash (by decide)
    · exact absurd (chars _ member) (by decide)
  | division => exact absurd last (by decide)

theorem textOf_reverse_cons (token : Token) (before : List Token) :
    textOf (token :: before).reverse = textOf before.reverse ++ token.text := by
  simp [textOf]

/-- The dots at the end of a text are the dots among its last tokens. -/
theorem dotRun_textOf (before : List Token) :
    Lexeme.dotRun (textOf before.reverse).reverse = dots before := by
  induction before with
  | nil => rfl
  | cons token before ih =>
    rw [textOf_reverse_cons, reverse_append, dots]
    cases dot : token.isDot with
    | true =>
      have text : token.text = ['.'] := by
        cases token <;> simp_all [Token.isDot, Token.text]
      rw [text, if_pos rfl, ← ih]
      exact dotRun_cons '.' _
    | false =>
      obtain ⟨c, others, backwards⟩ :=
        exists_cons_of_ne_nil (reverse_ne_nil_iff.mpr token.text_ne_nil)
      have other : c ≠ '.' := by
        rintro rfl
        refine Token.getLast?_text dot ?_
        rw [← head?_reverse, backwards]
        rfl
      rw [backwards, cons_append, dotRun_cons, if_neg other, if_neg Bool.false_ne_true]

theorem namesProperty_textOf (before : List Token) :
    Lexeme.namesProperty (textOf before.reverse).reverse = decide (AfterDot before) := by
  rw [namesProperty_eq, dotRun_textOf]
  rfl

/-- A word is a substitution point for the scanner where it is one among the tokens. -/
theorem ofWord_textOf (before : List Token) (first : Char) (others : Text) :
    Lexeme.ofWord (textOf before.reverse).reverse (first :: others) =
      if first = '_' ∧ others ≠ [] ∧ ¬ AfterDot before then .identifier (first :: others)
      else .word (first :: others) := by
  rw [Lexeme.ofWord, namesProperty_textOf]
  refine if_congr ?_ rfl rfl
  rw [length_cons, Nat.lt_add_left_iff_pos, length_pos_iff]
  simp
  tauto

theorem filterMap_lexemes (before : List Token) (token : Token) :
    (token.lexemes (textOf before.reverse).reverse).filterMap Lexeme.identifier? =
      (token.segment before).identifier?.toList := by
  cases token with
  | word first others begins chars =>
    rw [Token.lexemes, ofWord_textOf, Token.segment]
    split <;> rfl
  | _ => rfl

theorem flatMap_lexemes (substitute : Text → Option Text) (before : List Token) (token : Token) :
    (token.lexemes (textOf before.reverse).reverse).flatMap (Lexeme.render substitute) =
      (token.segment before).render substitute := by
  cases token with
  | word first others begins chars =>
    rw [Token.lexemes, ofWord_textOf, Token.segment]
    split <;> simp [Lexeme.render, Segment.render, Lexeme.text]
  | _ => simp [Token.lexemes, Token.segment, Lexeme.render, Segment.render, Lexeme.text, Token.text]

theorem scanFrom_textOf (before : List Token) {tokens : List Token}
    (placed : Placed (textOf before.reverse) tokens) :
    (Lexeme.scanFrom (textOf before.reverse).reverse (textOf tokens)).filterMap Lexeme.identifier? =
        (segmentsAfter before tokens).filterMap Segment.identifier? ∧
      ∀ substitute,
        (Lexeme.scanFrom (textOf before.reverse).reverse (textOf tokens)).flatMap
            (Lexeme.render substitute) =
          (segmentsAfter before tokens).flatMap (Segment.render substitute) := by
  induction tokens generalizing before with
  | nil => simp [textOf, Lexeme.scanFrom, segmentsAfter]
  | cons token tokens ih =>
    obtain ⟨expected, separated, following⟩ := placed
    rw [← textOf_reverse_cons] at following
    obtain ⟨identifiers, rendered⟩ := ih (token :: before) following
    rw [textOf_cons, scanFrom_token expected separated, ← textOf_reverse_cons]
    constructor
    · rw [filterMap_append, filterMap_lexemes, identifiers, segmentsAfter]
      cases name : (token.segment before).identifier? <;> simp [name]
    · intro substitute
      rw [flatMap_append, flatMap_lexemes, rendered, segmentsAfter, flatMap_cons]

/-- The substitution points of written code are the free words that begin with an underscore and
have more characters, in their order, and only they are replaced: the text of every other token is
copied. -/
theorem parse_textOf {tokens : List Token} (placed : Placed [] tokens) :
    (Fragment.parse (textOf tokens)).identifiers =
        (segmentsAfter [] tokens).filterMap Segment.identifier? ∧
      ∀ substitute, (Fragment.parse (textOf tokens)).render substitute =
        (segmentsAfter [] tokens).flatMap (Segment.render substitute) := by
  obtain ⟨identifiers, rendered⟩ := scanFrom_textOf [] placed
  refine ⟨?_, fun substitute => ?_⟩
  · rw [Fragment.identifiers_parse]
    exact identifiers
  · rw [Fragment.render_parse]
    exact rendered substitute

/-- The tokens of `return /_x[/"]/g.test(..._a) / _b`. -/
def quotient : List Token :=
  [.word 'r' "eturn" (by decide) (all_eq_true.mp (by decide)),
    .other ' ' (by decide) (by decide) (by decide),
    .regex '_' "x[/\"]" ['g']
      (.plain (by decide) (by decide) (by decide) (by decide)
        (.plain (by decide) (by decide) (by decide) (by decide)
          (.bracketed (.plain (by decide) (by decide) (by decide)
            (.plain (by decide) (by decide) (by decide) .done)) .done)))
      (by decide) (all_eq_true.mp (by decide)),
    .other '.' (by decide) (by decide) (by decide),
    .word 't' "est" (by decide) (all_eq_true.mp (by decide)),
    .other '(' (by decide) (by decide) (by decide),
    .other '.' (by decide) (by decide) (by decide),
    .other '.' (by decide) (by decide) (by decide),
    .other '.' (by decide) (by decide) (by decide),
    .word '_' ['a'] (by decide) (all_eq_true.mp (by decide)),
    .other ')' (by decide) (by decide) (by decide),
    .other ' ' (by decide) (by decide) (by decide),
    .division,
    .other ' ' (by decide) (by decide) (by decide),
    .word '_' ['b'] (by decide) (all_eq_true.mp (by decide))]

theorem placed_quotient : Placed [] quotient := by
  have keyword : BeginsExpression "return " :=
    .inr (.inl ⟨"return", by decide, [], [' '], by decide, by decide,
      all_eq_true.mp (by decide), all_eq_true.mp (by decide), by simp⟩)
  have closer : EndsOperand "return /_x[/\"]/g.test(..._a) " :=
    .inr ⟨')', by decide, "return /_x[/\"]/g.test(..._a", [' '], by decide,
      all_eq_true.mp (by decide), by decide, by decide⟩
  simp only [quotient, Placed, Token.Expected, Token.Separated, true_and, and_true]
  refine ⟨?_, keyword, ?_, ?_, ?_, closer, ?_, ?_⟩
  all_goals simp [Token.isName, textOf, Token.text]

theorem identifiers_quotient :
    Placed [] quotient ∧
      (Fragment.parse (textOf quotient)).identifiers = [['_', 'a'], ['_', 'b']] :=
  ⟨placed_quotient, (parse_textOf placed_quotient).1.trans (by decide)⟩

end ComponentPack.Code
