import ComponentPack.Host.Script.Basic

/-!
The text of a script while it is read: its characters, the number of the line, the token that has
been put back, the aliases that stand in for words, and the documents whose lines are still to come.
-/

namespace ComponentPack.Host.Script

inductive Cause where
  | unexpected (found : Text) (wanted? : Option Text)
  | unclosedQuotes
  | unclosedBraces
  | unclosedBackquotes
  | unclosedExpression
  | badLoopVariable
  | badFunctionName
  | tooLong
deriving DecidableEq, Repr

namespace Cause

def message : Cause → Text
  | unexpected found none => found ++ " unexpected"
  | unexpected found (some wanted) =>
    found ++ " unexpected (expecting " ++ wanted ++ ")"
  | unclosedQuotes => "Unterminated quoted string"
  | unclosedBraces => "Missing '\x7d'"
  | unclosedBackquotes => "EOF in backquote substitution"
  | unclosedExpression => "Missing '))'"
  | badLoopVariable => "Bad for loop variable"
  | badFunctionName => "Bad function name"
  | tooLong => "script too long"

end Cause

structure SyntaxError where
  line : Nat
  cause : Cause
deriving DecidableEq, Repr

def SyntaxError.message (error : SyntaxError) : Text :=
  "Syntax error: " ++ error.cause.message

inductive Token where
  | word (word : Word)
  | keyword (text : Text)
  | operator (text : Text)
  | redirect (stream? : Option Nat) (operator : Text)
  | finish

namespace Token

def newline : Token := .operator ['\n']

def keywords : List Text :=
  ["!", "case", "do", "done", "elif", "else", "esac", "fi", "for", "if", "in", "then", "until",
    "while", "\x7b", "\x7d"].map String.toList

def spells (token : Token) (text : String) : Bool :=
  match token with
  | .keyword known | .operator known => known = text.toList
  | _ => false

def isNewline (token : Token) : Bool := token.spells "\n"

def name : Token → Text
  | .word _ => "word"
  | .keyword text => '"' :: text ++ ['"']
  | .operator text => if text = ['\n'] then "newline" else '"' :: text ++ ['"']
  | .redirect _ _ => "redirection"
  | .finish => "end of file"

def endsList (token : Token) : Bool :=
  match token with
  | .finish => true
  | token =>
    [")", ";;", "do", "done", "elif", "else", "esac", "fi", "then", "\x7d"].any token.spells

end Token

/-- Text that is to be read: that of the script, or that of an alias. -/
structure Frame where
  text : Text
  name? : Option Text := none
  /-- After the alias, the next word may be one, too. -/
  goesOn : Bool := false

structure Mark where
  text : Text
  dropsTabs : Bool
  joinsLines : Bool

structure Awaited where
  number : Nat
  mark : Mark

structure Source where
  frames : List Frame
  line : Nat := 1
  again? : Option Token := none
  goesOn : Bool := false
  aliases : List (Text × Text) := []
  awaited : List Awaited := []
  documents : Nat := 0
  found : List (Nat × Word) := []
  /-- The lines of documents that are known. Where they stand is clear only when the rest of their
  command has been read, so a command with documents is read again. -/
  known : List (Nat × Word) := []

abbrev Reading := StateT Source (Except SyntaxError)

namespace Reading

def fail {α : Type} (cause : Cause) : Reading α := do
  throw ⟨(← get).line, cause⟩

def unexpected {α : Type} (token : Token) (wanted? : Option String) : Reading α :=
  fail (.unexpected token.name (wanted?.map fun wanted => wanted.toList))

def settled : Bool → List Frame → Bool × List Frame
  | goesOn, frame :: next :: frames =>
    if frame.text.isEmpty then settled (goesOn || frame.goesOn) (next :: frames)
    else (goesOn, frame :: next :: frames)
  | goesOn, frames => (goesOn, frames)

def upcoming : Reading Text := do
  let source ← get
  let (goesOn, frames) := settled source.goesOn source.frames
  set { source with goesOn := goesOn, frames := frames }
  return (frames.head?.map (·.text)).getD []

def resume (text : Text) : Reading Unit :=
  modify fun source =>
    match source.frames with
    | frame :: frames => { source with frames := { frame with text := text } :: frames }
    | [] => { source with frames := [⟨text, none, false⟩] }

def countLine : Reading Unit := modify fun source => { source with line := source.line + 1 }

def next? : Reading (Option Char) := do
  match ← upcoming with
  | [] => return none
  | c :: rest =>
    resume rest
    return some c

/-- How many line feeds a backslash takes away at the beginning of a text, and the rest of it. -/
def joined : Text → Nat × Text
  | '\\' :: '\n' :: rest =>
    let (count, rest) := joined rest
    (count + 1, rest)
  | text => (0, text)

/-- The character that is next when lines have been joined. -/
def peek? : Reading (Option Char) := do
  let text ← upcoming
  match joined text with
  | (0, _) => return text.head?
  | (count, rest) =>
    resume rest
    modify fun source => { source with line := source.line + count }
    return (← upcoming).head?

def advance : Reading Unit := do
  let _ ← next?

def pass (c : Char) : Reading Bool := do
  if (← peek?) = some c then
    advance
    return true
  else return false

def takeWhile (accepts : Char → Bool) : Nat → Reading Text
  | 0 => return []
  | count + 1 => do
    match ← peek? with
    | none => return []
    | some c =>
      if accepts c then
        advance
        return c :: (← takeWhile accepts count)
      else return []

def size : Reading Nat := do return ((← get).frames.map fun frame => frame.text.length).foldr (· + ·) 0

def putBack (token : Token) : Reading Unit :=
  modify fun source => { source with again? := some token }

/-- Passes over a document's mark, if it is a whole line and stands here. Tabs are dropped in any
case, and lines are joined before if the document has values. -/
def passMark (mark : Mark) : Reading Bool := do
  if mark.joinsLines then
    let _ ← peek?
  let text ← upcoming
  let text := if mark.dropsTabs then text.dropWhile (· = '\t') else text
  resume text
  match mark.text.isPrefixOf? text with
  | some [] =>
    resume []
    countLine
    return true
  | some ('\n' :: rest) =>
    resume rest
    countLine
    return true
  | _ => return false

end Reading

end ComponentPack.Host.Script
