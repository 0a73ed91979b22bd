import ComponentPack.Text.Basic

/-!
Command scripts: words, redirections and commands. A word is a row of pieces, some of which stand
for a value; a piece may hold words and commands of its own.
-/

namespace ComponentPack.Host.Script

def isNameStart (c : Char) : Bool := c.isAlpha || c == '_'

def isNamePart (c : Char) : Bool := isNameStart c || c.isDigit

def isName : Text → Bool
  | [] => false
  | c :: rest => isNameStart c && rest.all isNamePart

def isSpecial (c : Char) : Bool := c ∈ ['@', '*', '#', '?', '-', '$', '!']

inductive Opening where
  | read
  | write
  /-- A file that is there may be replaced in any case. -/
  | replace
  | append
  | both
deriving DecidableEq, Repr

mutual

inductive Piece where
  | char (c : Char) (quoted : Bool)
  /-- The beginning or the end of quotes, which make a field even of nothing. -/
  | quotes
  | parameter (name : Text) (rule : Rule) (quoted : Bool)
  | output (script : Command) (quoted : Bool)
  | number (expression : List Piece) (quoted : Bool)

inductive Rule where
  | value
  | size
  /-- What a missing value is replaced with, by one of the marks `-`, `=`, `?` and `+`. An empty
  value may count as missing. -/
  | replaced (mark : Char) (emptyToo : Bool) (operand : List Piece)
  /-- What a pattern matches is cut from the start or the end. -/
  | cut (fromEnd longest : Bool) (pattern : List Piece)
  | unknown

inductive Redirect where
  | file (stream : Nat) (opening : Opening) (file : List Piece)
  /-- The stream goes where another one goes, which is named by a number, or is closed by `-`. -/
  | copy (stream : Nat) (source : List Piece)
  | document (stream : Nat) (body : List Piece)

inductive Command where
  | nothing
  | simple (line : Nat) (assignments : List (Text × List Piece)) (words : List (List Piece))
    (redirects : List Redirect)
  | pipe (first second : Command)
  | negated (command : Command)
  | sequence (first second : Command)
  | both (first second : Command)
  | either (first second : Command)
  | background (command : Command)
  | subshell (line : Nat) (command : Command) (redirects : List Redirect)
  | redirected (line : Nat) (command : Command) (redirects : List Redirect)
  | branch (test yes no : Command)
  | loop (endsOnSuccess : Bool) (test body : Command)
  | each (line : Nat) (name : Text) (words : List (List Piece)) (body : Command)
  /-- Runs the body of the first clause with a pattern that the word matches. -/
  | choose (line : Nat) (word : List Piece) (clauses : Command)
  | clause (patterns : List (List Piece)) (body next : Command)
  | define (name : Text) (body : Command)

end

instance : Inhabited Command := ⟨.nothing⟩

abbrev Word := List Piece

def Command.isNothing : Command → Bool
  | nothing => true
  | _ => false

namespace Word

def bare? : Word → Option Text
  | [] => some []
  | .char c false :: rest => (bare? rest).map (c :: ·)
  | _ => none

def letters (word : Word) : Text :=
  word.filterMap fun
    | .char c _ => some c
    | _ => none

def hasQuotes (word : Word) : Bool :=
  word.any fun
    | .char _ quoted => quoted
    | .quotes => true
    | _ => false

def assignmentFrom (name : Text) : Word → Option (Text × Word)
  | .char '=' false :: value => if isName name then some (name, value) else none
  | .char c false :: rest => assignmentFrom (name ++ [c]) rest
  | _ => none

def assignment? (word : Word) : Option (Text × Word) := assignmentFrom [] word

def ofText (text : Text) : Word := text.map fun c => .char c true

def allArguments : Word := [.quotes, .parameter ['@'] .value true, .quotes]

end Word

end ComponentPack.Host.Script
