import ComponentPack.Host.Script.Source

/-!
Reading scripts. A script is read one line after another, and a line is run before the next one is
read; a command may stand on several lines.

Words hold scripts and commands hold words, so the functions below call each other. Each call has
less fuel than the one that makes it; there is more fuel than steps.
-/

namespace ComponentPack.Host.Script

inductive Place where
  /-- Outside of everything; in the mark of a document values are not looked for. -/
  | word (ofMark : Bool)
  | operand
  /-- In braces in double quotes; they may hold quotes again. -/
  | quotedOperand (inner : Bool)
  /-- In double quotes, which may stand in braces. -/
  | double (inOperand : Bool)
  /-- In an expression, in which so many parentheses are open. -/
  | expression (parens : Nat)
  | document
deriving DecidableEq, Repr

namespace Place

def isQuoted : Place → Bool
  | word _ | operand => false
  | _ => true

def isInOperand : Place → Bool
  | operand | quotedOperand _ => true
  | double inOperand => inOperand
  | _ => false

/-- Whether quotes of both kinds begin here. -/
def takesQuotes : Place → Bool
  | word _ | operand => true
  | _ => false

/-- What is missing if the text ends here, in a document or not. -/
def missing? (inDocument : Bool) : Place → Option Cause
  | word _ | document => none
  | operand => some .unclosedBraces
  | quotedOperand _ => some (if inDocument then .unclosedBraces else .unclosedQuotes)
  | double inOperand =>
    some (if inDocument ∧ inOperand then .unclosedBraces else .unclosedQuotes)
  | expression _ => some .unclosedExpression

def endsBefore (place : Place) (c : Char) : Bool :=
  match place with
  | word _ => c ∈ [' ', '\t', '\n', '<', '>', '(', ')', ';', '&', '|']
  | _ => false

/-- Whether a backslash before a character only protects it. -/
def protects (place : Place) (c : Char) : Bool :=
  !place.isQuoted || c ∈ ['\\', '\x60', '$'] || c = '"' && place ≠ .document ||
    c = '\x7d' && place.isInOperand

end Place

/-- What is written of a parameter before its operand. -/
inductive Head where
  | whole (name : Text) (rule : Rule)
  /-- An operand follows, and makes a rule. -/
  | opened (name : Text) (isPattern : Bool) (rule : Word → Rule)

structure Checks where
  lines : Bool := false
  keywords : Bool := false
  aliases : Bool := false

def Checks.command : Checks := ⟨false, true, true⟩

/-- The checks where a command begins, maybe on another line. -/
def Checks.next : Checks := ⟨true, true, true⟩

inductive Style where
  | line
  /-- A keyword or a parenthesis; the list has a command. -/
  | block
  /-- The same, but there may be no command. -/
  | clause
deriving DecidableEq, Repr

structure Parts where
  assignments : List (Text × Word) := []
  words : List Word := []
  redirects : List Redirect := []

namespace Reading

def braceName : Reading Text := do
  match ← peek? with
  | some c =>
    if isNameStart c then takeWhile isNamePart (← size)
    else if c.isDigit then takeWhile Char.isDigit (← size)
    else return []
  | none => return []

def take? : Reading (Option Char) := do
  let c? ← peek?
  advance
  return c?

/-- Reads the rule after the name of a parameter in braces. A character that begins no rule is
lost. -/
def braceRule (name : Text) : Reading Head := do
  let emptyToo ← pass ':'
  match ← take?, emptyToo with
  | some '\x7d', false => return .whole name .value
  | some '\x7d', true => return .opened name false fun _ => .value
  | some '%', false =>
    let longest ← pass '%'
    return .opened name true (.cut true longest)
  | some '#', false =>
    let longest ← pass '#'
    return .opened name true (.cut false longest)
  | c?, _ =>
    return .opened name false
      (match c?.filter (· ∈ ['-', '+', '?', '=']) with
        | some c => .replaced c emptyToo
        | none => fun _ => .unknown)

/-- Reads a parameter after its opening brace: a number sign in front asks for the size, unless it
is the parameter itself. -/
def brace : Reading Head := do
  let unknown : Head := .opened [] false fun _ => .unknown
  let name ← braceName
  if !name.isEmpty then braceRule name
  else
    match ← peek? with
    | none | some '\x7d' => return unknown
    | some '#' =>
      advance
      let sized ← braceName
      if !sized.isEmpty then
        let isWhole := (← peek?) = some '\x7d'
        return .opened sized false fun _ => if isWhole then .size else .unknown
      else
        match ← upcoming with
        | c :: '\x7d' :: _ =>
          if c = '\x7d' then braceRule ['#']
          else
            advance
            return if isSpecial c then .opened [c] false fun _ => .size else unknown
        | _ => braceRule ['#']
    | some c =>
      advance
      if isSpecial c then braceRule [c] else return unknown

/-- Ends a line inside of a word; the second result tells whether a document ends with it. -/
def endLine (mark? : Option Mark) : Reading Bool := do
  countLine
  match mark? with
  | some mark => passMark mark
  | none => return false

/-- Reads a text in single quotes of at most so many characters. -/
def single (mark? : Option Mark) : Nat → Reading Text
  | 0 => fail .unclosedQuotes
  | size + 1 => do
    match ← next? with
    | none => fail (if mark?.isSome then .unclosedBraces else .unclosedQuotes)
    | some '\'' => return []
    | some c =>
      if c = '\n' then
        if ← endLine mark? then
          fail .unclosedBraces
      return c :: (← single mark? size)

/-- Reads the lines of a document, in which nothing has a meaning; there are at most so many
characters. -/
def lines (mark : Mark) : Nat → Reading Text
  | 0 => return []
  | size + 1 => do
    match ← next? with
    | none => return []
    | some '\n' =>
      if ← endLine (some mark) then return ['\n']
      else return '\n' :: (← lines mark size)
    | some c => return c :: (← lines mark size)

/-- Reads a text in backquotes of at most so many characters. A backslash only protects a few
characters. -/
def backquoted (quoted : Bool) : Nat → Reading Text
  | 0 => fail .unclosedBackquotes
  | size + 1 => do
    match ← take? with
    | none => fail .unclosedBackquotes
    | some '\x60' => return []
    | some '\\' =>
      match ← next? with
      | none => fail .unclosedBackquotes
      | some c =>
        let isProtected := c ∈ ['\\', '\x60', '$'] || c = '"' && quoted
        let rest ← backquoted quoted size
        return if isProtected then c :: rest else '\\' :: c :: rest
    | some c =>
      if c = '\n' then
        countLine
      return c :: (← backquoted quoted size)

def skipBlanks : Nat → Reading Unit
  | 0 => return
  | size + 1 => do
    match ← peek? with
    | some ' ' | some '\t' =>
      advance
      skipBlanks size
    | some '#' =>
      resume ((← upcoming).dropWhile (· ≠ '\n'))
      skipBlanks size
    | _ => return

def operator? : Reading (Option Token) := do
  match ← peek? with
  | none => return some .finish
  | some '\n' =>
    advance
    countLine
    return some .newline
  | some c =>
    if c = '(' ∨ c = ')' then
      advance
      return some (.operator [c])
    else if c = '&' ∨ c = '|' ∨ c = ';' then
      advance
      return some (.operator (if ← pass c then [c, c] else [c]))
    else return none

def redirection (stream? : Option Nat) : Reading Token := do
  match ← take? with
  | some '>' =>
    match ← peek? with
    | some c =>
      if c = '>' ∨ c = '|' ∨ c = '&' then
        advance
        return .redirect stream? ['>', c]
      else return .redirect stream? ['>']
    | none => return .redirect stream? ['>']
  | _ =>
    if ← pass '<' then
      return .redirect stream? (if ← pass '-' then ['<', '<', '-'] else ['<', '<'])
    else if ← pass '&' then
      return .redirect stream? ['<', '&']
    else if ← pass '>' then
      return .redirect stream? ['<', '>']
    else
      return .redirect stream? ['<']

/-- The redirection that a word names, if it stands before one: nothing, or a digit. -/
def stream? (word : Word) : Option (Option Nat) :=
  match word with
  | [] => some none
  | [.char c false] => if c.isDigit then some (some (c.toNat - '0'.toNat)) else none
  | _ => none

/-- Replaces a word by what it is an alias of, unless that is being read. -/
def openAlias (name : Text) : Reading Bool := do
  let source ← get
  let isOpen := source.frames.any fun frame => frame.name? = some name
  match source.aliases.find? fun (known, _) => known = name with
  | none => return false
  | some (_, text) =>
    if isOpen then return false
    else
      let goesOn := text.getLast?.any fun c => c = ' ' || c = '\t'
      let frame : Frame := ⟨if goesOn then text else text ++ [' '], some name, goesOn⟩
      if !text.isEmpty then
        set { source with frames := frame :: source.frames }
      return true

def redirect (stream? : Option Nat) (operator : Text) (word : Word) : Redirect :=
  let input := stream?.getD 0
  let output := stream?.getD 1
  match String.ofList operator with
  | "<" => .file input .read word
  | "<>" => .file input .both word
  | ">>" => .file output .append word
  | ">|" => .file output .replace word
  | "<&" => .copy input word
  | ">&" => .copy output word
  | _ => .file output .write word

def await (stream? : Option Nat) (dropsTabs : Bool) (word : Word) : Reading Redirect := do
  let source ← get
  let document : Awaited :=
    { number := source.documents
      mark := ⟨word.letters, dropsTabs, !word.hasQuotes⟩ }
  set { source with
    documents := source.documents + 1
    awaited := source.awaited ++ [document] }
  let body := (source.known.find? fun (number, _) => number = document.number).map Prod.snd
  return .document (stream?.getD 0) (body.getD [])

def add : Command → Command → Command
  | .nothing, command => command
  | before, command => .sequence before command

/-- The commands whose names a function cannot have. -/
def reserved : List Text :=
  ["break", "continue", "eval", "exec", "exit", "export", "local", "readonly", "return", "set",
    "shift", "times", "trap", "unset"].map String.toList

mutual

/-- Reads pieces of a word up to its end or that of quotes and brackets around it. Pieces that have
been read are given in reverse. -/
def pieces : Nat → Option Mark → Place → Word → Reading Word
  | 0, _, _, _ => fail .tooLong
  | fuel + 1, mark?, place, read => do
    let literal (c : Char) : Reading Word :=
      pieces fuel mark? place (.char c place.isQuoted :: read)
    let ended (read : Word) : Reading Word :=
      match place.missing? mark?.isSome with
      | some cause => fail cause
      | none => return read.reverse
    match ← peek? with
    | none => ended read
    | some c =>
      if place.endsBefore c then
        return read.reverse
      advance
      match c, place with
      | '\n', _ =>
        let isLast ← endLine mark?
        let read := .char c place.isQuoted :: read
        if isLast then ended read else pieces fuel mark? place read
      | '\\', _ =>
        match ← next? with
        | none => pieces fuel mark? place (.char '\\' true :: read)
        | some c =>
          let read := if place.protects c then read else .char '\\' true :: read
          pieces fuel mark? place (.char c true :: read)
      | '"', .double _ => return read.reverse
      | '"', .quotedOperand inner =>
        let read := if mark?.isSome then read else .quotes :: read
        pieces fuel mark? (.quotedOperand !inner) read
      | '"', _ =>
        if place.takesQuotes then
          let inside ← pieces fuel mark? (.double place.isInOperand) []
          pieces fuel mark? place (.quotes :: inside.reverse ++ .quotes :: read)
        else literal c
      | '\'', _ =>
        if place.takesQuotes then
          let inside ← single mark? (← size)
          pieces fuel mark? place (.quotes :: (Word.ofText inside).reverse ++ .quotes :: read)
        else literal c
      | '$', _ =>
        let piece ← dollar fuel mark? place
        pieces fuel mark? place (piece :: read)
      | '\x60', .word true => literal c
      | '\x60', _ =>
        let script ← backquotes fuel place.isQuoted
        pieces fuel mark? place (.output script place.isQuoted :: read)
      | '\x7d', .operand | '\x7d', .quotedOperand false => return read.reverse
      | '(', .expression parens =>
        pieces fuel mark? (.expression (parens + 1)) (.char c true :: read)
      | ')', .expression 0 => if ← pass ')' then return read.reverse else literal c
      | ')', .expression (parens + 1) =>
        pieces fuel mark? (.expression parens) (.char c true :: read)
      | _, _ => literal c

def dollar : Nat → Option Mark → Place → Reading Piece
  | 0, _, _ => fail .tooLong
  | fuel + 1, mark?, place => do
    let quoted := place.isQuoted
    match ← peek?, place with
    | some '(', .word false | some '(', .operand | some '(', .quotedOperand _
    | some '(', .double _ | some '(', .expression _ | some '(', .document =>
      advance
      if ← pass '(' then
        return .number (← pieces fuel mark? (.expression 0) []) quoted
      else
        let awaited := (← get).awaited
        modify fun source => { source with awaited := [] }
        let script ← list fuel .clause true .nothing
        let token ← token fuel {}
        unless token.spells ")" do
          unexpected token "\")\""
        modify fun source => { source with awaited := awaited }
        return .output script quoted
    | _, .word true => return .char '$' quoted
    | some '\x7b', _ =>
      advance
      match ← brace with
      | .whole name rule => return .parameter name rule quoted
      | .opened name isPattern rule =>
        let inside : Place := if isPattern ∨ !quoted then .operand else .quotedOperand false
        return .parameter name (rule (← pieces fuel mark? inside [])) quoted
    | some c, _ =>
      if isNameStart c then
        return .parameter (← takeWhile isNamePart (← size)) .value quoted
      else if c.isDigit ∨ isSpecial c then
        advance
        return .parameter [c] .value quoted
      else return .char '$' quoted
    | none, _ => return .char '$' quoted

/-- Reads a script in backquotes: its text is taken first, and what follows a whole list of commands
in it is lost. -/
def backquotes : Nat → Bool → Reading Command
  | 0, _ => fail .tooLong
  | fuel + 1, quoted => do
    let text ← backquoted quoted (← size)
    let outer ← get
    set { outer with frames := [⟨text, none, false⟩], line := 1, again? := none, awaited := [] }
    let script ← list fuel .clause true .nothing
    modify fun inner => { outer with documents := inner.documents, found := inner.found }
    return script

def documents : Nat → Reading Unit
  | 0 => fail .tooLong
  | fuel + 1 => do
    match (← get).awaited with
    | [] => return
    | document :: awaited =>
      modify fun source => { source with awaited := awaited }
      let body : Word ←
        if ← passMark document.mark then pure []
        else if document.mark.joinsLines then pieces fuel (some document.mark) .document []
        else
          let text ← lines document.mark (← size)
          pure (Word.ofText text)
      modify fun source => { source with found := (document.number, body) :: source.found }
      documents fuel

/-- Reads a token, or takes the one that has been put back. -/
def rawToken : Nat → (ofMark : Bool) → Reading Token
  | 0, _ => fail .tooLong
  | fuel + 1, ofMark => do
    match (← get).again? with
    | some token =>
      modify fun source => { source with again? := none }
      return token
    | none =>
      skipBlanks (← size)
      match ← operator? with
      | some token => return token
      | none =>
        let word ← pieces fuel none (.word ofMark) []
        match ← peek?, stream? word with
        | some '<', some stream? | some '>', some stream? => redirection stream?
        | _, _ => return .word word

def token : Nat → Checks → Reading Token
  | 0, _ => fail .tooLong
  | fuel + 1, checks => do
    let found ← rawToken fuel false
    let goesOn := (← get).goesOn
    modify fun source => { source with goesOn := false }
    let checks := { checks with aliases := checks.aliases || goesOn }
    match found with
    | .operator ['\n'] =>
      if checks.lines then
        documents fuel
        token fuel checks
      else return found
    | .word word =>
      match word.bare? with
      | none => return found
      | some text =>
        if checks.keywords ∧ text ∈ Token.keywords then return .keyword text
        else if checks.aliases then
          if ← openAlias text then token fuel checks else return found
        else return found
    | _ => return found

def redirectTo : Nat → Option Nat → Text → Reading Redirect
  | 0, _, _ => fail .tooLong
  | fuel + 1, stream?, operator => do
    let isDocument := operator.take 2 = ['<', '<']
    match ← rawToken fuel isDocument with
    | .word word =>
      if isDocument then await stream? (operator.length = 3) word
      else return redirect stream? operator word
    | token => unexpected token none

/-- Reads words and redirections; aliases are looked for before the first word. -/
def parts : Nat → Parts → Reading Command
  | 0, _ => fail .tooLong
  | fuel + 1, read => do
    let line := (← get).line
    partsFrom fuel line read

def partsFrom : Nat → Nat → Parts → Reading Command
  | 0, _, _ => fail .tooLong
  | fuel + 1, line, read => do
    let found ← token fuel { aliases := read.words.isEmpty }
    let ended : Reading Command := do
      putBack found
      return .simple line read.assignments read.words read.redirects
    match found with
    | .word word =>
      match read.words.isEmpty, word.assignment? with
      | true, some assignment =>
        partsFrom fuel line { read with assignments := read.assignments ++ [assignment] }
      | _, _ => partsFrom fuel line { read with words := read.words ++ [word] }
    | .redirect stream? operator =>
      let redirect ← redirectTo fuel stream? operator
      partsFrom fuel line { read with redirects := read.redirects ++ [redirect] }
    | .operator ['('] =>
      match read with
      | ⟨[], [name], []⟩ =>
        let closing ← token fuel {}
        unless closing.spells ")" do
          unexpected closing "\")\""
        match name.bare?.filter fun name => isName name ∧ name ∉ reserved with
        | none => fail .badFunctionName
        | some name => return .define name (← command fuel .next)
      | _ => ended
    | _ => ended

def redirects : Nat → List Redirect → Reading (List Redirect)
  | 0, _ => fail .tooLong
  | fuel + 1, read => do
    match ← token fuel .command with
    | .redirect stream? operator =>
      let redirect ← redirectTo fuel stream? operator
      redirects fuel (read ++ [redirect])
    | token =>
      putBack token
      return read

def expect : Nat → Checks → String → Reading Unit
  | 0, _, _ => fail .tooLong
  | fuel + 1, checks, text => do
    let token ← token fuel checks
    unless token.spells text do
      unexpected token ("\"" ++ text ++ "\"")

/-- Reads commands up to the end of their list; `before` has been read. -/
def list : Nat → Style → (isFirst : Bool) → (before : Command) → Reading Command
  | 0, _, _, _ => fail .tooLong
  | fuel + 1, style, isFirst, before => do
    let found ← token fuel { Checks.command with lines := style ≠ .line }
    let ended : Reading Command := do
      documents fuel
      putBack .finish
      return before
    match found with
    | .operator ['\n'] =>
      documents fuel
      return before
    | .finish => ended
    | _ =>
      putBack found
      if found.endsList ∧ (style = .clause ∨ style = .block ∧ !isFirst) then
        return before
      else
        let command ← chain fuel
        let found ← token fuel {}
        let before := add before (if found.spells "&" then .background command else command)
        match found with
        | .finish =>
          documents fuel
          putBack .finish
          return before
        | .operator ['\n'] =>
          putBack found
          list fuel style false before
        | .operator ['&'] | .operator [';'] => list fuel style false before
        | _ =>
          if style = .line then unexpected found none
          else
            putBack found
            return before

def chain : Nat → Reading Command
  | 0 => fail .tooLong
  | fuel + 1 => do
    let command ← pipeline fuel {}
    links fuel command

def links : Nat → Command → Reading Command
  | 0, _ => fail .tooLong
  | fuel + 1, before => do
    let found ← token fuel {}
    if found.spells "&&" then
      links fuel (.both before (← pipeline fuel .next))
    else if found.spells "||" then
      links fuel (.either before (← pipeline fuel .next))
    else
      putBack found
      return before

def pipeline : Nat → Checks → Reading Command
  | 0, _ => fail .tooLong
  | fuel + 1, checks => do
    let found ← token fuel checks
    if found.spells "!" then
      return .negated (← pipes fuel .command)
    else
      putBack found
      pipes fuel {}

def pipes : Nat → Checks → Reading Command
  | 0, _ => fail .tooLong
  | fuel + 1, checks => do
    let command ← command fuel checks
    let found ← token fuel {}
    if found.spells "|" then
      return .pipe command (← pipes fuel .next)
    else
      putBack found
      return command

def command : Nat → Checks → Reading Command
  | 0, _ => fail .tooLong
  | fuel + 1, checks => do
    let line := (← get).line
    let found ← token fuel checks
    let redirected (command : Command) : Reading Command := do
      match ← redirects fuel [], command with
      | [], _ => return command
      -- Braces around parentheses alone have no redirections of their own.
      | redirects, .subshell line command _ => return .subshell line command redirects
      | redirects, _ => return .redirected line command redirects
    match found with
    | .word _ | .redirect _ _ =>
      putBack found
      parts fuel {}
    | .operator ['('] =>
      let command ← list fuel .block true .nothing
      expect fuel {} ")"
      return .subshell line command (← redirects fuel [])
    | .keyword text =>
      match String.ofList text with
      | "if" =>
        let command ← branch fuel
        expect fuel {} "fi"
        redirected command
      | "while" | "until" =>
        let test ← list fuel .block true .nothing
        expect fuel {} "do"
        let body ← list fuel .block true .nothing
        expect fuel {} "done"
        redirected (.loop (text = "until") test body)
      | "for" => redirected (← loop fuel line)
      | "case" =>
        match ← token fuel {} with
        | .word word =>
          expect fuel .next "in"
          redirected (.choose line word (← clauses fuel))
        | token => unexpected token "word"
      | "\x7b" =>
        let command ← list fuel .block true .nothing
        expect fuel {} "\x7d"
        redirected command
      | _ => unexpected found none
    | _ => unexpected found none

def branch : Nat → Reading Command
  | 0 => fail .tooLong
  | fuel + 1 => do
    let test ← list fuel .block true .nothing
    expect fuel {} "then"
    let yes ← list fuel .block true .nothing
    let found ← token fuel {}
    if found.spells "elif" then
      return .branch test yes (← branch fuel)
    else if found.spells "else" then
      return .branch test yes (← list fuel .block true .nothing)
    else
      putBack found
      return .branch test yes .nothing

def loop : Nat → Nat → Reading Command
  | 0, _ => fail .tooLong
  | fuel + 1, line => do
    match ← token fuel {} with
    | .word word =>
      match word.bare?.filter isName with
      | none => fail .badLoopVariable
      | some name =>
        let words ← loopWords fuel
        expect fuel .next "do"
        let body ← list fuel .block true .nothing
        expect fuel {} "done"
        return .each line name words body
    | _ => fail .badLoopVariable

/-- The words of a loop over words; without any the loop is over the arguments. -/
def loopWords : Nat → Reading (List Word)
  | 0 => fail .tooLong
  | fuel + 1 => do
    let found ← token fuel .next
    if found.spells "in" then
      words fuel []
    else
      unless found.spells ";" do
        putBack found
      return [Word.allArguments]

def words : Nat → List Word → Reading (List Word)
  | 0, _ => fail .tooLong
  | fuel + 1, read => do
    match ← token fuel {} with
    | .word word => words fuel (read ++ [word])
    | token =>
      if token.isNewline ∨ token.spells ";" then return read
      else unexpected token none

def clauses : Nat → Reading Command
  | 0 => fail .tooLong
  | fuel + 1 => do
    let found ← token fuel ⟨true, true, false⟩
    if found.spells "esac" then
      return .nothing
    else
      let patterns ←
        if found.spells "(" then do
          let first ← token fuel {}
          patternsFrom fuel first
        else patternsFrom fuel found
      let body ← list fuel .clause true .nothing
      let found ← token fuel ⟨true, true, false⟩
      if found.spells "esac" then
        return .clause patterns body .nothing
      else if found.spells ";;" then
        return .clause patterns body (← clauses fuel)
      else unexpected found "\";;\""

/-- The patterns of a clause, from a given one on, with the parenthesis after them. -/
def patternsFrom : Nat → Token → Reading (List Word)
  | 0, _ => fail .tooLong
  | fuel + 1, first => do
    let pattern : Word := match first with
      | .word word => word
      | .keyword text => text.map fun c => .char c false
      | _ => []
    let found ← token fuel {}
    if found.spells "|" then
      let second ← token fuel {}
      return pattern :: (← patternsFrom fuel second)
    else if found.spells ")" then return [pattern]
    else unexpected found "\")\""

end

def line? (fuel : Nat) : Reading (Option Command) := do
  match ← token fuel Checks.command with
  | .finish => return none
  | token =>
    putBack token
    return some (← list fuel .line true .nothing)

end Reading

namespace Source

def ofText (text : Text) : Source := { frames := [⟨text, none, false⟩] }

/-- More steps than reading the rest of a script takes. -/
def steps (source : Source) : Nat :=
  20 * ((source.frames.map fun frame => frame.text.length).foldr (· + ·) 0 +
    (source.aliases.map fun (_, text) => text.length).foldr (· + ·) 0) + 1000

/-- Reads the commands of a line, and what is left of the script. Documents may stand in the lines
of others, so a line is read as often as it has documents, and once more. -/
def line? (source : Source) : Except SyntaxError (Option (Command × Source)) := do
  let reading := Reading.line? source.steps
  let fresh := { source with documents := 0, found := [], known := [] }
  let first ← reading.run fresh
  let (command?, rest) ← (List.range first.2.documents).foldlM (fun (_, last) _ =>
    reading.run { fresh with known := last.found }) first
  return command?.map fun command => (command, rest)

end Source

def Word.ofDocument (text : Text) : Word :=
  let source := Source.ofText text
  match (Reading.pieces source.steps none .document []).run source with
  | .ok (word, _) => word
  | .error _ => Word.ofText text

end ComponentPack.Host.Script
