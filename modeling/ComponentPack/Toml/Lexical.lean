import ComponentPack.Text.Basic

/-!
The small parts of TOML: blanks, comments, line ends, strings and keys. A scanner returns what it
reads and the rest of the text.
-/

namespace ComponentPack.Toml

def isSpace (c : Char) : Bool := c == ' ' || c == '\t'

def skipSpaces (text : Text) : Text := text.dropWhile isSpace

/-- The characters of comments: no control characters but the tab. -/
def isCommentChar (c : Char) : Bool :=
  c == '\t' || (0x20 ≤ c.toNat && c.toNat ≤ 0x7E) || 0x80 ≤ c.toNat

/-- What follows a line feed, which may have a carriage return before it. -/
def newline? : Text → Option Text
  | '\n' :: rest => some rest
  | '\r' :: '\n' :: rest => some rest
  | _ => none

def skipComment : Text → Text
  | '#' :: rest => rest.dropWhile isCommentChar
  | text => text

/-- What follows the end of a line: blanks, a comment, and a line feed or the end of the text. -/
def lineEnd? (text : Text) : Option Text :=
  match skipComment (skipSpaces text) with
  | [] => some []
  | rest => newline? rest

/-- Skips blanks, comments and line feeds; `lines` bounds the number of lines. -/
def skipLinesUpTo : Nat → Text → Text
  | 0, text => text
  | lines + 1, text =>
    let text := skipSpaces text
    match newline? (skipComment text) with
    | some rest => skipLinesUpTo lines rest
    | none => text

def skipLines (text : Text) : Text := skipLinesUpTo text.length text

def hexValue? (c : Char) : Option Nat :=
  if c.isDigit then some (c.toNat - '0'.toNat)
  else if 'a' ≤ c ∧ c ≤ 'f' then some (c.toNat - 'a'.toNat + 10)
  else if 'A' ≤ c ∧ c ≤ 'F' then some (c.toNat - 'A'.toNat + 10)
  else none

/-- The character of a code in hexadecimal digits; surrogates are none. -/
def codePoint? (digits : Text) : Option Char :=
  (digits.foldlM (fun n c => (hexValue? c).map fun d => n * 16 + d) 0).bind fun n =>
    if n < 0xD800 ∨ 0xDFFF < n ∧ n < 0x110000 then some (Char.ofNat n) else none

def escaped? (c : Char) : Option Char :=
  if c = 'b' then some (Char.ofNat 8)
  else if c = 't' then some '\t'
  else if c = 'n' then some '\n'
  else if c = 'f' then some (Char.ofNat 12)
  else if c = 'r' then some '\r'
  else if c = '"' ∨ c = '\\' then some c
  else none

def consChar (c? : Option Char) (read : Option (Text × Text)) : Option (Text × Text) :=
  match c?, read with
  | some c, some (text, rest) => some (c :: text, rest)
  | _, _ => none

def basicString : Text → Option (Text × Text)
  | [] => none
  | '"' :: rest => some ([], rest)
  | '\\' :: 'u' :: a :: b :: c :: d :: rest => consChar (codePoint? [a, b, c, d]) (basicString rest)
  | '\\' :: 'U' :: a :: b :: c :: d :: e :: f :: g :: h :: rest =>
    consChar (codePoint? [a, b, c, d, e, f, g, h]) (basicString rest)
  | '\\' :: c :: rest => consChar (escaped? c) (basicString rest)
  | c :: rest => if isCommentChar c then consChar (some c) (basicString rest) else none

/-- The rest of a string after its opening apostrophe. Nothing is escaped. -/
def literalString : Text → Option (Text × Text)
  | [] => none
  | '\'' :: rest => some ([], rest)
  | c :: rest => if isCommentChar c then consChar (some c) (literalString rest) else none

/-- Where a scan of a string of several lines stands. -/
inductive Place where
  | inText
  /-- After a backslash at the end of a line, which joins lines; `broken` tells whether the line
  feed has been met. -/
  | joining (broken : Bool)
deriving DecidableEq, Repr

/-- The rest of a string of several lines in quotation marks. One or two quotation marks may stand
before the closing ones. -/
def multilineBasic : Place → Text → Option (Text × Text)
  | _, [] => none
  | .joining _, '\n' :: rest => multilineBasic (.joining true) rest
  | .joining _, '\r' :: '\n' :: rest => multilineBasic (.joining true) rest
  | .joining broken, ' ' :: rest => multilineBasic (.joining broken) rest
  | .joining broken, '\t' :: rest => multilineBasic (.joining broken) rest
  | .joining false, _ => none
  | _, '"' :: '"' :: '"' :: '"' :: '"' :: rest => some (['"', '"'], rest)
  | _, '"' :: '"' :: '"' :: '"' :: rest => some (['"'], rest)
  | _, '"' :: '"' :: '"' :: rest => some ([], rest)
  | _, '"' :: rest => consChar (some '"') (multilineBasic .inText rest)
  | _, '\\' :: 'u' :: a :: b :: c :: d :: rest =>
    consChar (codePoint? [a, b, c, d]) (multilineBasic .inText rest)
  | _, '\\' :: 'U' :: a :: b :: c :: d :: e :: f :: g :: h :: rest =>
    consChar (codePoint? [a, b, c, d, e, f, g, h]) (multilineBasic .inText rest)
  | _, '\\' :: '\n' :: rest => multilineBasic (.joining true) rest
  | _, '\\' :: '\r' :: '\n' :: rest => multilineBasic (.joining true) rest
  | _, '\\' :: ' ' :: rest => multilineBasic (.joining false) rest
  | _, '\\' :: '\t' :: rest => multilineBasic (.joining false) rest
  | _, '\\' :: c :: rest => consChar (escaped? c) (multilineBasic .inText rest)
  | _, '\n' :: rest => consChar (some '\n') (multilineBasic .inText rest)
  | _, '\r' :: '\n' :: rest => consChar (some '\n') (multilineBasic .inText rest)
  | _, c :: rest =>
    if isCommentChar c then consChar (some c) (multilineBasic .inText rest) else none

def multilineLiteral : Text → Option (Text × Text)
  | [] => none
  | '\'' :: '\'' :: '\'' :: '\'' :: '\'' :: rest => some (['\'', '\''], rest)
  | '\'' :: '\'' :: '\'' :: '\'' :: rest => some (['\''], rest)
  | '\'' :: '\'' :: '\'' :: rest => some ([], rest)
  | '\n' :: rest => consChar (some '\n') (multilineLiteral rest)
  | '\r' :: '\n' :: rest => consChar (some '\n') (multilineLiteral rest)
  | c :: rest => if isCommentChar c then consChar (some c) (multilineLiteral rest) else none

/-- A line feed right after the opening marks does not belong to the string. -/
def afterOpening (text : Text) : Text := (newline? text).getD text

def string? : Text → Option (Text × Text)
  | '"' :: '"' :: '"' :: rest => multilineBasic .inText (afterOpening rest)
  | '"' :: rest => basicString rest
  | '\'' :: '\'' :: '\'' :: rest => multilineLiteral (afterOpening rest)
  | '\'' :: rest => literalString rest
  | _ => none

def isBareKeyChar (c : Char) : Bool := c.isAlphanum || c == '_' || c == '-'

def simpleKey? : Text → Option (Text × Text)
  | '"' :: rest => basicString rest
  | '\'' :: rest => literalString rest
  | text =>
    match text.takeWhile isBareKeyChar with
    | [] => none
    | name => some (name, text.dropWhile isBareKeyChar)

/-- Reads parts of a key between dots; `parts` bounds their number. Blanks around the parts do not
count. -/
def keyUpTo : Nat → Text → Option (List Text × Text)
  | 0, _ => none
  | parts + 1, text =>
    match simpleKey? (skipSpaces text) with
    | none => none
    | some (name, rest) =>
      match skipSpaces rest with
      | '.' :: rest =>
        match keyUpTo parts rest with
        | some (names, rest) => some (name :: names, rest)
        | none => none
      | rest => some ([name], rest)

/-- A key has fewer parts than this, and values are nested less deeply. -/
def depthLimit : Nat := 80

def key? (text : Text) : Option (List Text × Text) := keyUpTo (depthLimit - 1) text

end ComponentPack.Toml
