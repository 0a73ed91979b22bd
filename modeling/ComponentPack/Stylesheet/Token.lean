import ComponentPack.Stylesheet.Numeral

/-!
The tokens of stylesheets: names, numbers with units, quoted texts, and single marks. Escapes are
read, so that two ways to write a name give the same token.
-/

namespace ComponentPack.Stylesheet

inductive Token where
  | blank
  | comment
  | name (text : Text)
  | call (name : Text)
  | atName (name : Text)
  /-- A name or digits after `#`. -/
  | hash (text : Text) (isName : Bool)
  /-- A number and its unit, which may be a percent sign or nothing. -/
  | number (value : Numeral) (unit : Text)
  | quoted (text : Text)
  | address (text : Text)
  /-- A quoted text that a line break cuts short, or an address with blanks or quotes inside. -/
  | broken
  /-- What opens or closes a comment of the page around. -/
  | fence (text : Text)
  | mark (c : Char)
deriving DecidableEq, Repr

namespace Token

def digit? (c : Char) : Option Nat :=
  if c.isDigit then some (c.toNat - '0'.toNat)
  else if 'a' ≤ c.toLower ∧ c.toLower ≤ 'f' then some (c.toLower.toNat - 'a'.toNat + 10)
  else none

/-- What stands for the characters after a backslash, and the rest: a character with a number in up
to six digits, which a blank may end, and else the character itself. -/
def escaped (text : Text) : Char × Text :=
  let digits := (text.take 6).takeWhile fun c => (digit? c).isSome
  match digits, text with
  | [], [] => ('\ufffd', [])
  | [], c :: rest => (c, rest)
  | digits, text =>
    let code := (digits.filterMap digit?).foldl (fun code digit => 16 * code + digit) 0
    let rest := text.drop digits.length
    let rest := if rest.head?.any Text.isAsciiBlank then rest.drop 1 else rest
    (if code = 0 ∨ ¬ code.isValidChar then '\ufffd' else Char.ofNat code, rest)

def isNameStart (c : Char) : Bool := c.isAlpha || c == '_' || 0x80 ≤ c.toNat

def isNamePart (c : Char) : Bool := isNameStart c || c.isDigit || c == '-'

/-- The beginning of a text of at most so many characters that belongs to a name, and the rest. -/
def namePart : Nat → Text → Text × Text
  | 0, text => ([], text)
  | _, [] => ([], [])
  | size + 1, c :: rest =>
    if c = '\\' ∧ rest.head? ≠ some '\n' then
      let (c, rest) := escaped rest
      let (word, rest) := namePart size rest
      (c :: word, rest)
    else if isNamePart c then
      let (word, rest) := namePart size rest
      (c :: word, rest)
    else ([], c :: rest)

def beginsName : Text → Bool
  | '-' :: c :: rest => isNameStart c || c == '-' || c == '\\' && rest.head? != some '\n'
  | '\\' :: rest => rest.head? != some '\n'
  | c :: _ => isNameStart c
  | [] => false

def beginsNumber (text : Text) : Bool :=
  let unsigned := match text with
    | '+' :: rest | '-' :: rest => rest
    | rest => rest
  match unsigned with
  | '.' :: c :: _ => c.isDigit
  | c :: _ => c.isDigit
  | [] => false

/-- The digits of a number, with its sign, its point and an exponent, and the rest. -/
def numberPart (text : Text) : Text × Text :=
  let sign := text.takeWhile fun c => c = '+' ∨ c = '-'
  let unsigned := text.drop sign.length
  let whole := unsigned.takeWhile Char.isDigit
  let rest := unsigned.drop whole.length
  let part : Text := match rest with
    | '.' :: c :: after => if c.isDigit then '.' :: (c :: after).takeWhile Char.isDigit else []
    | _ => []
  let rest := rest.drop part.length
  let exponent : Text := match rest with
    | e :: after =>
      let sign := (after.take 1).filter fun c => c = '+' ∨ c = '-'
      let digits := (after.drop sign.length).takeWhile Char.isDigit
      if (e = 'e' ∨ e = 'E') ∧ !digits.isEmpty then e :: sign ++ digits else []
    | [] => []
  (sign ++ whole ++ part ++ exponent, rest.drop exponent.length)

def afterComment (text : Text) : Text := ((Text.cut? ['*', '/'] text).map Prod.snd).getD []

/-- A quoted text of at most so many characters, and the rest; there is none if a line break cuts it
short. A line break after a backslash stands for nothing. -/
def quotedPart (quote : Char) : Nat → Text → Option (Text × Text)
  | 0, _ | _, [] => some ([], [])
  | size + 1, c :: rest =>
    if c = quote then some ([], rest)
    else if c = '\n' then none
    else if c = '\\' ∧ rest.head? = some '\n' then quotedPart quote size (rest.drop 1)
    else if c = '\\' ∧ rest.isEmpty then some ([], [])
    else
      let (c, rest) := if c = '\\' then escaped rest else (c, rest)
      (quotedPart quote size rest).map fun (text, rest) => (c :: text, rest)

/-- An address of at most so many characters, and the rest; there is none if it has quotes or blanks
inside. -/
def addressPart : Nat → Text → Option (Text × Text)
  | 0, _ | _, [] => some ([], [])
  | size + 1, c :: rest =>
    if c = ')' then some ([], rest)
    else if Text.isAsciiBlank c then
      match rest.dropWhile Text.isAsciiBlank with
      | [] => some ([], [])
      | ')' :: rest => some ([], rest)
      | _ => none
    else if c ∈ ['"', '\'', '('] then none
    else
      let (c, rest) := if c = '\\' then escaped rest else (c, rest)
      (addressPart size rest).map fun (text, rest) => (c :: text, rest)

def ofName (word rest : Text) : Token × Text :=
  match rest with
  | '(' :: rest =>
    let inside := rest.dropWhile Text.isAsciiBlank
    let isQuoted := inside.head?.any fun c => c = '"' || c = '\''
    if Text.lower word = "url" ∧ !isQuoted then
      match addressPart inside.length inside with
      | some (text, rest) => (.address text, rest)
      | none => (.broken, (inside.dropWhile (· ≠ ')')).drop 1)
    else (.call word, rest)
  | rest => (.name word, rest)

def opener : Text := "<!--"

def closing : Text := "-->"

def first (c : Char) (rest : Text) : Token × Text :=
  let text := c :: rest
  if Text.isAsciiBlank c then (.blank, rest.dropWhile Text.isAsciiBlank)
  else if c = '/' ∧ rest.head? = some '*' then (.comment, afterComment (rest.drop 1))
  else if c = '"' ∨ c = '\'' then
    match quotedPart c rest.length rest with
    | some (inside, rest) => (.quoted inside, rest)
    | none => (.broken, rest.dropWhile (· ≠ '\n'))
  else if beginsNumber text then
    let (value, rest) := numberPart text
    let value := Numeral.read value
    if rest.head? = some '%' then (.number value ['%'], rest.drop 1)
    else if beginsName rest then
      let (unit, rest) := namePart rest.length rest
      (.number value unit, rest)
    else (.number value [], rest)
  else if opener.isPrefixOf text then (.fence opener, rest.drop 3)
  else if closing.isPrefixOf text then (.fence closing, rest.drop 2)
  else if beginsName text then
    let (word, rest) := namePart text.length text
    ofName word rest
  else if c = '@' ∧ beginsName rest then
    let (word, rest) := namePart rest.length rest
    (.atName word, rest)
  else if c = '#' ∧ (rest.head?.any isNamePart ∨ beginsName rest) then
    let (word, after) := namePart rest.length rest
    (.hash word (beginsName rest), after)
  else (.mark c, rest)

def scanFrom : Nat → Text → List Token
  | 0, _ | _, [] => []
  | size + 1, c :: rest =>
    let (token, rest) := first c rest
    token :: scanFrom size rest

/-- A text in which carriage returns and form feeds are line breaks. -/
def withLines : Text → Text
  | [] => []
  | '\r' :: '\n' :: rest | '\r' :: rest | '\x0c' :: rest => '\n' :: withLines rest
  | c :: rest => c :: withLines rest

def scan (css : Text) : List Token :=
  let lines := withLines css
  scanFrom lines.length lines

def closer? : Token → Option Char
  | call _ | mark '(' => some ')'
  | mark '[' => some ']'
  | mark '\x7b' => some '\x7d'
  | _ => none

def isCloser (token : Token) : Bool :=
  token = mark ')' || token = mark ']' || token = mark '\x7d'

/-- The tokens before the first of some marks outside of brackets, and the rest. Brackets that are
open at the end are closed there; there is no result if one is closed that is not open, or if a
token is broken. -/
def before? (marks : List Char) : List Char → List Token → Option (List Token × List Token)
  | awaited, [] => some (awaited.map mark, [])
  | awaited, token :: rest =>
    if awaited.isEmpty ∧ marks.any (token = mark ·) then some ([], token :: rest)
    else if token = broken then none
    else
      let awaited? : Option (List Char) :=
        match token.closer?, awaited with
        | some closer, awaited => some (closer :: awaited)
        | none, [] => if token.isCloser then none else some []
        | none, closer :: outer =>
          if token = mark closer then some outer
          else if token.isCloser then none
          else some (closer :: outer)
      awaited?.bind fun awaited =>
        (before? marks awaited rest).map fun (taken, rest) => (token :: taken, rest)

def hexEscape (c : Char) : Text := '\\' :: Nat.toDigits 16 c.toNat ++ [' ']

def nameChar (c : Char) : Text :=
  if isNamePart c then [c]
  else if c.toNat < 0x20 ∨ c.toNat = 0x7f then hexEscape c
  else ['\\', c]

def nameText : Text → Text
  | [] => []
  | ['-'] => ['\\', '-']
  | '-' :: '-' :: rest => '-' :: '-' :: rest.flatMap nameChar
  | '-' :: c :: rest =>
    '-' :: (if c.isDigit then hexEscape c else nameChar c) ++ rest.flatMap nameChar
  | c :: rest => (if c.isDigit then hexEscape c else nameChar c) ++ rest.flatMap nameChar

def quotedChar (c : Char) : Text :=
  if c = '"' ∨ c = '\\' then ['\\', c]
  else if c.toNat < 0x20 ∨ c.toNat = 0x7f then hexEscape c
  else [c]

def quotedText (text : Text) : Text := '"' :: text.flatMap quotedChar ++ ['"']

def addressChar (c : Char) : Text :=
  if c.toNat ≤ 0x20 ∨ c.toNat = 0x7f then hexEscape c
  else if c ∈ ['(', ')', '"', '\'', '\\'] then ['\\', c]
  else [c]

/-- An address, with quotes if that is shorter. -/
def addressText (text : Text) : Text :=
  let plain := text.flatMap addressChar
  let inQuotes := quotedText text
  "url(" ++ (if inQuotes.length < plain.length then inQuotes else plain) ++ [')']

end Token

end ComponentPack.Stylesheet
