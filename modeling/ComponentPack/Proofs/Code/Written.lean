import ComponentPack.Proofs.Code.Lossless

/-!
Code as it is written: a row of tokens, each in a form of its own. Where a token may stand is told
by the text before it and by what follows it, without a scanner; so is which words are free. Each
token is then read back by the scanner in such a place.
-/

set_option autoImplicit false

namespace ComponentPack.Code

open Lexeme (isWordStart isWordChar regexKeywords)

/-- The inside of a literal: its own quote and the backslash stand only after a backslash. -/
inductive LiteralBody (quote : Char) : Text → Prop where
  | done : LiteralBody quote []
  | plain {c : Char} {rest : Text} (inner : c ≠ quote) (single : c ≠ '\\') :
      LiteralBody quote rest → LiteralBody quote (c :: rest)
  | escaped (c : Char) {rest : Text} :
      LiteralBody quote rest → LiteralBody quote ('\\' :: c :: rest)

/-- The inside of the brackets of a regular expression. -/
inductive ClassBody : Text → Prop where
  | done : ClassBody []
  | plain {c : Char} {rest : Text} (single : c ≠ '\\') (line : c ≠ '\n') (inner : c ≠ ']') :
      ClassBody rest → ClassBody (c :: rest)
  | escaped (c : Char) {rest : Text} : ClassBody rest → ClassBody ('\\' :: c :: rest)

/-- The inside of a regular expression: a slash stands only after a backslash or inside of brackets,
and a line feed only after a backslash. -/
inductive RegexBody : Text → Prop where
  | done : RegexBody []
  | plain {c : Char} {rest : Text} (single : c ≠ '\\') (line : c ≠ '\n') (inner : c ≠ '/')
      (outside : c ≠ '[') : RegexBody rest → RegexBody (c :: rest)
  | escaped (c : Char) {rest : Text} : RegexBody rest → RegexBody ('\\' :: c :: rest)
  | bracketed {inside rest : Text} :
      ClassBody inside → RegexBody rest → RegexBody ('[' :: inside ++ ']' :: rest)

/-- The quotes that open a literal. -/
def isQuote (c : Char) : Bool := c == '"' || c == '\'' || c == '\x60'

/-- A written token. -/
inductive Token where
  | quoted (quote : Char) (body : Text) (opens : isQuote quote = true)
      (closed : LiteralBody quote body)
  | block (body : Text) (closed : ¬ ['*', '/'] <:+: body)
  /-- A comment with the line feed that ends it. -/
  | line (body : Text) (closed : '\n' ∉ body)
  | word (first : Char) (others : Text) (begins : isWordStart first = true)
      (chars : ∀ c ∈ others, isWordChar c = true)
  | number (first : Char) (others : Text) (begins : first.isDigit = true)
      (chars : ∀ c ∈ others, isWordChar c = true)
  /-- A blank or any other character that begins none of the other tokens. -/
  | other (c : Char) (inert : isQuote c = false) (slash : c ≠ '/') (outside : isWordChar c = false)
  /-- A regular expression with its flags; it does not look like a comment. -/
  | regex (first : Char) (others flags : Text) (closed : RegexBody (first :: others))
      (block : first ≠ '*') (chars : ∀ c ∈ flags, isWordChar c = true)
  | division

namespace Token

def text : Token → Text
  | quoted quote body _ _ => quote :: body ++ [quote]
  | block body _ => ['/', '*'] ++ body ++ ['*', '/']
  | line body _ => ['/', '/'] ++ body ++ ['\n']
  | word first others _ _ | number first others _ _ => first :: others
  | other c _ _ _ => [c]
  | regex first others flags _ _ _ => '/' :: first :: others ++ '/' :: flags
  | division => ['/']

/-- Words and numbers, which must not follow one another without a gap. -/
def isName : Token → Bool
  | word .. | number .. => true
  | _ => false

def isDot : Token → Bool
  | other c _ _ _ => c == '.'
  | _ => false

end Token

/-- The text of tokens. -/
def textOf (tokens : List Token) : Text := tokens.flatMap Token.text

/-- The text before a place ends with this word and blanks after it. -/
def EndsWithWord (before word : Text) : Prop :=
  ∃ front blanks : Text, before = front ++ word ++ blanks ∧ word ≠ [] ∧
    (∀ c ∈ blanks, Text.isAsciiBlank c = true) ∧ (∀ c ∈ word, isWordChar c = true) ∧
    ∀ c ∈ front.getLast?, isWordChar c = false

/-- The text before a place ends with this character and blanks after it. -/
def EndsWithChar (before : Text) (c : Char) : Prop :=
  ∃ front blanks : Text, before = front ++ c :: blanks ∧
    (∀ d ∈ blanks, Text.isAsciiBlank d = true) ∧
    Text.isAsciiBlank c = false ∧ isWordChar c = false

/-- The characters other than those of words that end an operand. -/
def closers : List Char := [')', ']', '"', '\'', '\x60']

/-- An expression begins here: nothing stands before, or a keyword, or what ends no operand. -/
def BeginsExpression (before : Text) : Prop :=
  (∀ c ∈ before, Text.isAsciiBlank c = true) ∨
    (∃ word ∈ regexKeywords, EndsWithWord before word) ∨
    ∃ c, c ∉ closers ∧ EndsWithChar before c

/-- An operand ends here: a word that is no keyword or a number, a bracket or a quote. -/
def EndsOperand (before : Text) : Prop :=
  (∃ word, word ∉ regexKeywords ∧ EndsWithWord before word) ∨
    ∃ c ∈ closers, EndsWithChar before c

namespace Token

/-- What the text before a token has to be. -/
def Expected (before : Text) : Token → Prop
  | regex .. => BeginsExpression before
  | division => EndsOperand before
  | _ => True

/-- What may follow a token: no name follows a name or flags, and no slash becomes a comment. -/
def Separated (following : List Token) : Token → Prop
  | word .. | number .. | regex .. => ∀ token ∈ following.head?, token.isName = false
  | division => ∀ c ∈ (textOf following).head?, c ≠ '/' ∧ c ≠ '*'
  | _ => True

end Token

/-- Every token stands in a place for it, after the given text. -/
def Placed (before : Text) : List Token → Prop
  | [] => True
  | token :: tokens =>
    token.Expected before ∧ token.Separated tokens ∧ Placed (before ++ token.text) tokens

/-- How many dots stand directly before, given the tokens before from the last to the first. -/
def dots : List Token → Nat
  | [] => 0
  | token :: tokens => if token.isDot then dots tokens + 1 else 0

/-- A name after a dot belongs to a property, but three dots spread a value. -/
def AfterDot (before : List Token) : Prop := 0 < dots before ∧ dots before < 3

instance (before : List Token) : Decidable (AfterDot before) := inferInstanceAs (Decidable (_ ∧ _))

/-- What a token is cut into: a word with an underscore and more that names no property is a
substitution point. -/
def Token.segment (before : List Token) : Token → Segment
  | word first others _ _ =>
    if first = '_' ∧ others ≠ [] ∧ ¬ AfterDot before then .identifier (first :: others)
    else .plain (first :: others)
  | token => .plain token.text

/-- The segments of tokens, one for each, after the given ones. -/
def segmentsAfter (before : List Token) : List Token → List Segment
  | [] => []
  | token :: tokens => token.segment before :: segmentsAfter (token :: before) tokens

end ComponentPack.Code
