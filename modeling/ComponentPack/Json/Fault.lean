import ComponentPack.Text.Basic

/-!
What can be wrong with a JSON text, and where. A fault names the number of bytes of the text in
question; a message shows their last line and how many of them stand on it.
-/

namespace ComponentPack.Json

inductive Cause where
  | endInValue
  | endInObject
  | endInList
  | endInString
  | expectedValue
  | expectedWord
  | expectedColon
  | expectedMemberEnd
  | expectedItemEnd
  | trailingComma
  | keyNotString
  | trailingCharacters
  | invalidNumber
  | numberOutOfRange
  | invalidEscape
  | loneSurrogate
  | endOfSurrogatePair
  | controlCharacter
  /-- Bytes of a wanted string that are no UTF-8. -/
  | brokenText
  | tooDeep
  | invalidType (found wanted : Text)
  | missingField (name : Text)
  | duplicateField (name : Text)
  | invalidLength (count : Nat) (wanted : Text)
deriving DecidableEq, Repr

namespace Cause

def message : Cause → Text
  | endInValue => "EOF while parsing a value"
  | endInObject => "EOF while parsing an object"
  | endInList => "EOF while parsing a list"
  | endInString => "EOF while parsing a string"
  | expectedValue => "expected value"
  | expectedWord => "expected ident"
  | expectedColon => "expected `:`"
  | expectedMemberEnd => "expected `,` or `\x7d`"
  | expectedItemEnd => "expected `,` or `]`"
  | trailingComma => "trailing comma"
  | keyNotString => "key must be a string"
  | trailingCharacters => "trailing characters"
  | invalidNumber => "invalid number"
  | numberOutOfRange => "number out of range"
  | invalidEscape => "invalid escape"
  | loneSurrogate => "lone leading surrogate in hex escape"
  | endOfSurrogatePair => "unexpected end of hex escape"
  | controlCharacter =>
    "control character (\\u0000-\\u001F) found while parsing a string"
  | brokenText => "invalid unicode code point"
  | tooDeep => "recursion limit exceeded"
  | invalidType found wanted =>
    "invalid type: " ++ found ++ ", expected " ++ wanted
  | missingField name => "missing field `" ++ name ++ "`"
  | duplicateField name => "duplicate field `" ++ name ++ "`"
  | invalidLength count wanted =>
    "invalid length " ++ Text.ofNat count ++ ", expected " ++ wanted

end Cause

/-- A cause, and the number of bytes of the text that are in question. -/
structure Fault where
  cause : Cause
  offset : Nat
deriving DecidableEq, Repr

/-- The line that holds the end of the first `count` bytes, and the bytes of it among them. -/
def placeOf (count : Nat) (line column : Nat) : Text → Nat × Nat
  | [] => (line, column)
  | c :: rest =>
    if count = 0 then (line, column)
    else if c = '\n' then placeOf (count - 1) (line + 1) 0 rest
    else placeOf (count - c.utf8Size) line (column + min count c.utf8Size) rest

structure ReadError where
  cause : Cause
  line : Nat
  column : Nat
deriving DecidableEq, Repr

namespace ReadError

/-- Places a fault in its text; no place lies beyond the end. -/
def ofFault (text : Text) (fault : Fault) : ReadError :=
  let (line, column) := placeOf fault.offset 1 0 text
  ⟨fault.cause, line, column⟩

def message (e : ReadError) : Text :=
  e.cause.message ++ " at line " ++ Text.ofNat e.line ++ " column " ++
    Text.ofNat e.column

end ReadError

end ComponentPack.Json
