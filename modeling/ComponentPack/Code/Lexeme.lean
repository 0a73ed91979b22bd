import ComponentPack.Text.Basic

/-!
The lexemes of script code, as far as they matter for finding free identifiers.

Literals, comments and regular expressions hide what they contain. The scanner returns the lexemes
in order; put together they are the code again. Whether a slash opens a regular expression and
whether a word names a property depends on the code before it, which the scanner carries along
backwards.
-/

namespace ComponentPack.Code

inductive Lexeme where
  /-- A string or template literal with its quotes; the last one may be open. -/
  | quoted (text : Text)
  /-- A comment up to its end: a line comment stops before the line feed. -/
  | comment (text : Text)
  | regex (text : Text)
  | number (text : Text)
  /-- A word that is no substitution point. -/
  | word (text : Text)
  /-- A free word that begins with an underscore: a substitution point. -/
  | identifier (text : Text)
  | symbol (c : Char)
deriving DecidableEq, Repr

namespace Lexeme

def text : Lexeme → Text
  | quoted t | comment t | regex t | number t | word t | identifier t => t
  | symbol c => [c]

def isWordStart (c : Char) : Bool := c.isAlpha || c == '_' || c == '$'

def isWordChar (c : Char) : Bool := c.isAlphanum || c == '_' || c == '$'

/-- A literal after its opening quote, through the next quote that no backslash precedes, or to the
end of the code; and the rest. -/
def literalTail (quote : Char) : Text → Text × Text
  | [] => ([], [])
  | c :: rest =>
    if c = quote then ([c], rest)
    else if c = '\\' then
      match rest with
      | [] => ([c], [])
      | d :: rest =>
        let (span, rest) := literalTail quote rest
        (c :: d :: span, rest)
    else
      let (span, rest) := literalTail quote rest
      (c :: span, rest)

/-- Whether the brackets of a regular expression are open after a character. -/
def classAfter (inClass : Bool) (c : Char) : Bool :=
  if c = '[' then true else if c = ']' then false else inClass

/-- A regular expression after its opening slash, through its flags, and the rest. A slash inside
brackets does not end it; one that does not end on its line is none. -/
def regexTail? (inClass : Bool) : Text → Option (Text × Text)
  | [] => none
  | c :: rest =>
    if c = '\\' then
      match rest with
      | [] => none
      | d :: rest => (regexTail? inClass rest).map fun (span, rest) => (c :: d :: span, rest)
    else if c = '\n' then none
    else if c = '/' ∧ !inClass then
      some (c :: rest.takeWhile isWordChar, rest.dropWhile isWordChar)
    else
      (regexTail? (classAfter inClass c) rest).map fun (span, rest) => (c :: span, rest)

def regexKeywords : List Text :=
  ["return", "typeof", "case", "in", "of", "void", "throw"].map String.toList

/-- Whether a slash opens a regular expression after the code that is given backwards: it does so
unless an operand stands before it. -/
def opensRegex (before : Text) : Bool :=
  match before.dropWhile Text.isAsciiBlank with
  | [] => true
  | c :: rest =>
    if isWordChar c then regexKeywords.contains ((c :: rest).takeWhile isWordChar).reverse
    else c != ')' && c != ']' && c != '"' && c != '\'' && c != '\x60'

/-- Whether a word after the code that is given backwards names a property: it follows a dot that
is not the last of three. -/
def namesProperty : Text → Bool
  | '.' :: '.' :: '.' :: _ => false
  | '.' :: _ => true
  | _ => false

def ofWord (before word : Text) : Lexeme :=
  if 1 < word.length ∧ word.head? = some '_' ∧ !namesProperty before then identifier word
  else .word word

def atSlash (before rest : Text) : Lexeme × Text :=
  match rest with
  | '/' :: _ =>
    (comment ('/' :: rest.takeWhile (· ≠ '\n')), rest.dropWhile (· ≠ '\n'))
  | '*' :: body =>
    match Text.cut? ['*', '/'] body with
    | some (inner, after) => (comment ('/' :: '*' :: inner ++ ['*', '/']), after)
    | none => (comment ('/' :: '*' :: body), [])
  | _ =>
    if opensRegex before then
      match regexTail? false rest with
      | some (span, after) => (regex ('/' :: span), after)
      | none => (symbol '/', rest)
    else (symbol '/', rest)

/-- The lexeme that begins with a character after the code that is given backwards. -/
def next (before : Text) (c : Char) (rest : Text) : Lexeme × Text :=
  if c = '"' ∨ c = '\'' ∨ c = '\x60' then
    let (span, after) := literalTail c rest
    (quoted (c :: span), after)
  else if c = '/' then atSlash before rest
  else if c.isDigit then
    (number (c :: rest.takeWhile isWordChar), rest.dropWhile isWordChar)
  else if isWordStart c then
    (ofWord before (c :: rest.takeWhile isWordChar), rest.dropWhile isWordChar)
  else (symbol c, rest)

/-! A lexeme and the rest are the text that was given; the first character is always taken. -/

theorem literalTail_append (quote : Char) (text : Text) :
    (literalTail quote text).1 ++ (literalTail quote text).2 = text := by
  fun_induction literalTail quote text <;> simp_all

theorem eq_append_of_regexTail? {inClass : Bool} {text span rest : Text}
    (found : regexTail? inClass text = some (span, rest)) : text = span ++ rest := by
  fun_induction regexTail? inClass text generalizing span rest with
  | case1 | case2 | case4 => simp at found
  | case3 inClass c rest ih | case6 inClass c rest _ _ _ ih =>
    obtain ⟨⟨a, b⟩, tail, pair⟩ := Option.map_eq_some_iff.mp found
    cases pair
    rw [ih tail]
    rfl
  | case5 inClass c rest =>
    cases found
    rw [List.cons_append, List.takeWhile_append_dropWhile]

theorem exists_atSlash (before rest : Text) :
    ∃ span, (atSlash before rest).1.text = '/' :: span ∧
      span ++ (atSlash before rest).2 = rest := by
  unfold atSlash
  split
  · exact ⟨_, rfl, List.takeWhile_append_dropWhile⟩
  · next body =>
    split
    · next inner after cut =>
      exact ⟨_, rfl, by simp [Text.eq_append_of_cut? cut]⟩
    · exact ⟨_, rfl, List.append_nil _⟩
  · split
    · split
      · next found => exact ⟨_, rfl, (eq_append_of_regexTail? found).symm⟩
      · exact ⟨[], rfl, rfl⟩
    · exact ⟨[], rfl, rfl⟩

theorem text_ofWord (before word : Text) : (ofWord before word).text = word := by
  unfold ofWord
  split <;> rfl

theorem exists_next (before : Text) (c : Char) (rest : Text) :
    ∃ span, (next before c rest).1.text = c :: span ∧ span ++ (next before c rest).2 = rest := by
  unfold next
  split
  · exact ⟨_, rfl, literalTail_append c rest⟩
  · split
    · next slash => exact slash ▸ exists_atSlash before rest
    · split
      · exact ⟨_, rfl, List.takeWhile_append_dropWhile⟩
      · split
        · exact ⟨_, text_ofWord _ _, List.takeWhile_append_dropWhile⟩
        · exact ⟨[], rfl, rfl⟩

theorem length_le_of_next (before : Text) (c : Char) (rest : Text) :
    (next before c rest).2.length ≤ rest.length := by
  obtain ⟨span, -, whole⟩ := exists_next before c rest
  have size := congrArg List.length whole
  rw [List.length_append] at size
  omega

/-- The lexemes of code that follows other code, which is given backwards. -/
def scanFrom (before : Text) : Text → List Lexeme
  | [] => []
  | c :: rest =>
    let found := next before c rest
    found.1 :: scanFrom (found.1.text.reverse ++ before) found.2
termination_by code => code.length
decreasing_by exact Nat.lt_succ_of_le (length_le_of_next before c rest)

def scan (code : Text) : List Lexeme := scanFrom [] code

end Lexeme

end ComponentPack.Code
