import ComponentPack.Host.Basic
import ComponentPack.Host.Options
import ComponentPack.Text.Utf8

/-!
A few small programs that every host offers. Text is bytewise: each character stands for one byte.
-/

namespace ComponentPack.Host

open Files

/-- What a program can read. A file can be read again from any place; what comes through a pipe is
gone when it has been read. -/
structure Input where
  bytes : ByteArray := .empty
  /-- The file, and how much of it has been read. -/
  file? : Option (Location × Nat) := none
  fault? : Option Text := none

def Input.notOpen : Text := "Bad file descriptor"

structure Write where
  toErrors : Bool := false
  bytes : ByteArray

structure Result where
  writes : List Write := []
  code : Nat := 0

namespace Result

def bytes (result : Result) (ofErrors : Bool) : ByteArray :=
  result.writes.foldl (fun bytes write =>
    if write.toErrors = ofErrors then bytes ++ write.bytes else bytes) .empty

def output (result : Result) : ByteArray := result.bytes false

def errors (result : Result) : ByteArray := result.bytes true

def append (a b : Result) : Result :=
  ⟨a.writes ++ b.writes, if b.code = 0 then a.code else b.code⟩

def shown (bytes : ByteArray) : Result := { writes := [{ bytes := bytes }] }

def printed (text : Text) : Result := shown (Text.toRow text)

def failedWith (code : Nat) (text : Text) : Result :=
  { writes := [{ toErrors := true, bytes := Text.toRow text }], code := code }

def failed (text : Text) : Result := failedWith 1 text

end Result

structure Setting where
  disk : Disk
  /-- The file to which the output goes, and how much of it stands before that. -/
  output? : Option (Location × Nat) := none

/-- What is found after some bytes have gone to the output. -/
def Setting.after (setting : Setting) (size : Nat) : Setting :=
  let output? := setting.output?.map fun (location, written) => (location, written + size)
  { setting with output? }

/-- A small program: from what it finds, its arguments and the input to a result and the input that
is left. -/
abbrev Tool := Setting → List Text → Input → Result × Input

namespace Tool

def isInput (file : Text) : Bool := file = ['-'] || file = "/dev/stdin"

/-- Why a file cannot be read: it cannot be opened, or only not read. -/
inductive Trouble where
  | opening (reason : Text)
  | reading (reason : Text)

def Trouble.reason : Trouble → Text
  | opening reason | reading reason => reason

def content (setting : Setting) (input : Input) (file : Text) : Except Trouble ByteArray :=
  if isInput file then
    match input.fault? with
    | some reason => .error (.reading reason)
    | none => .ok input.bytes
  else if file = "/dev/null" then .ok .empty
  else
    match setting.disk.read ⟨Text.gather file⟩ with
    | .ok content => .ok content
    | .error .isDirectory => .error (.reading Fault.isDirectory.reason)
    | .error e => .error (.opening e.reason)

def place? (setting : Setting) (input : Input) (file : Text) : Option (Location × Nat) :=
  if isInput file then input.file?
  else
    match setting.disk.resolve .target ⟨Text.gather file⟩ with
    | .ok (.present location _) => some (location, 0)
    | _ => none

def isPlainInName (c : Char) : Bool :=
  c.isAlphanum || c ∈ ['%', '+', ',', '-', '.', '/', '@', '_', ']', '\x7b', '\x7d', '#', '~']

def isPrintable (c : Char) : Bool := ' ' ≤ c && c ≤ '~'

def octal (c : Char) : Text :=
  let digits := Nat.toDigits 8 c.toNat
  '\\' :: List.replicate (3 - digits.length) '0' ++ digits

/-- A character that cannot be shown, as it stands in quotes with a dollar sign. -/
def escaped (c : Char) : Text :=
  match c with
  | '\x07' => "\\a"
  | '\x08' => "\\b"
  | '\t' => "\\t"
  | '\n' => "\\n"
  | '\x0b' => "\\v"
  | '\x0c' => "\\f"
  | '\r' => "\\r"
  | c => octal c

/-- A name between quotes, which are left for characters that need others; `isLeft` tells whether
they have been left. -/
def quotedFrom (isLeft : Bool) : Text → Text
  | [] => ['\'']
  | c :: rest =>
    if isPrintable c then
      (if isLeft then "\'\'".toList else []) ++
        (if c = '\'' then "'\\''".toList else [c]) ++ quotedFrom false rest
    else (if isLeft then [] else "'$'") ++ escaped c ++ quotedFrom true rest

def quoted (name : Text) : Text :=
  if name.any (· = '\'') ∧ name.all fun c => isPlainInName c || c ∈ ['\'', ' ', ':'] then
    '"' :: name ++ ['"']
  else '\'' :: quotedFrom false name

def quotedIfNeeded (name : Text) : Text :=
  let isPlain := name.all isPlainInName && name ≠ ['\x7b'] && name ≠ ['\x7d'] &&
    !(name.head?.any fun c => c = '#' || c = '~')
  if !name.isEmpty ∧ isPlain then name else quoted name

def quotedValue (value : Text) : Text :=
  '\'' :: value.flatMap (fun c =>
    if c = '\'' ∨ c = '\\' then ['\\', c] else if isPrintable c then [c] else escaped c) ++ ['\'']

def misused (tool message : Text) : Result :=
  .failed (tool ++ ": " ++ message ++ "\nTry '" ++ tool ++
    " --help' for more information.\n")

/-- Complains that the input cannot be closed, if it has been read and is not open. -/
def closed (result : Result) (input : Input) (files : List Text) (message : String) : Result :=
  if files.contains ['-'] ∧ input.fault? = some Input.notOpen then
    result.append (.failed (message.toList ++ ": " ++ Input.notOpen ++ ['\n']))
  else result

def presented (tool : Text) (letter : Char) : Result :=
  .printed (if letter = 'H' then "Usage: " ++ tool ++ " [OPTION]... [FILE]...\n"
    else tool ++ ['\n'])

def commonRules : List OptionRule := [
  { letter := 'H', isShort := false, long := some "help" },
  { letter := 'V', isShort := false, long := some "version" }]

def presentation? (choices : List Choice) : Option Char :=
  (choices.find? fun choice => choice.letter = 'H' ∨ choice.letter = 'V').map (·.letter)

structure Display where
  numberAll : Bool := false
  numberFilled : Bool := false
  squeezes : Bool := false
  marksEnds : Bool := false
  marksTabs : Bool := false
  marksHidden : Bool := false
deriving DecidableEq

def Display.choose (display : Display) (choice : Choice) : Display :=
  match choice.letter with
  | 'A' => { display with marksHidden := true, marksEnds := true, marksTabs := true }
  | 'b' => { display with numberFilled := true }
  | 'e' => { display with marksHidden := true, marksEnds := true }
  | 'E' => { display with marksEnds := true }
  | 'n' => { display with numberAll := true }
  | 's' => { display with squeezes := true }
  | 't' => { display with marksHidden := true, marksTabs := true }
  | 'T' => { display with marksTabs := true }
  | 'v' => { display with marksHidden := true }
  | _ => display

def catRules : List OptionRule := [
  { letter := 'b', long := some "number-nonblank" },
  { letter := 'n', long := some "number" },
  { letter := 's', long := some "squeeze-blank" },
  { letter := 'v', long := some "show-nonprinting" },
  { letter := 'E', long := some "show-ends" },
  { letter := 'T', long := some "show-tabs" },
  { letter := 'A', long := some "show-all" },
  { letter := 'e' },
  { letter := 't' },
  { letter := 'u' }] ++ commonRules

def Display.byte (display : Display) (byte : UInt8) : List UInt8 :=
  let low (b : UInt8) : List UInt8 :=
    if b < 32 then [94, b + 64] else if b = 127 then [94, 63] else [b]
  if byte = 9 then if display.marksTabs then [94, 73] else [9]
  else if !display.marksHidden then [byte]
  else if byte < 128 then low byte
  else 77 :: 45 :: low (byte - 128)

def lineNumber (n : Nat) : List UInt8 :=
  let digits := Text.ofNat n
  (Text.toRow (List.replicate (6 - digits.length) ' ' ++ digits ++ ['\t'])).toList

/-- Bytes as they are shown: `number` lines have been numbered, `blank` empty lines stand before
this place, and `isStart` tells whether a line begins here. -/
def Display.bytes (display : Display) (number blank : Nat) (isStart : Bool) :
    List UInt8 → List UInt8
  | [] => []
  | byte :: rest =>
    if byte = 10 then
      -- Before a line feed, a carriage return is marked together with the end.
      let ending := if display.marksEnds then [36, 10] else [10]
      if isStart then
        if display.squeezes ∧ 0 < blank then display.bytes number blank true rest
        else if display.numberAll ∧ !display.numberFilled then
          lineNumber (number + 1) ++ ending ++ display.bytes (number + 1) (blank + 1) true rest
        else ending ++ display.bytes number (blank + 1) true rest
      else ending ++ display.bytes number 0 true rest
    else
      let marked :=
        if byte = 13 ∧ display.marksEnds ∧ rest.head? = some 10 then [94, 77]
        else display.byte byte
      if isStart ∧ (display.numberAll ∨ display.numberFilled) then
        lineNumber (number + 1) ++ marked ++ display.bytes (number + 1) 0 false rest
      else marked ++ display.bytes number 0 false rest

/-- Whether a file would be read from a place before the one where it is written. -/
def readsOutput (setting : Setting) (input : Input) (file : Text) : Bool :=
  match setting.output?, place? setting input file with
  | some (output, written), some (location, offset) => output = location && offset < written
  | _, _ => false

/-- Reads files one after the other; a `-` stands for the input. -/
def concatenate (setting : Setting) (input : Input) : List Text → Result × Input
  | [] => ({}, input)
  | file :: files =>
    let failed (reason : Text) : Result :=
      .failed ("cat: " ++ quotedIfNeeded file ++ ": " ++ reason ++ ['\n'])
    let first : Result :=
      match content setting input file with
      | .ok content =>
        if readsOutput setting input file then failed "input file is output file"
        else .shown content
      | .error trouble => failed trouble.reason
    let input : Input := if isInput file then { input with bytes := .empty } else input
    let (others, input) := concatenate (setting.after first.output.size) input files
    (first.append others, input)

def cat : Tool := fun setting arguments input =>
  let request := OptionRule.read catRules arguments
  match presentation? request.choices, request.fault? with
  | some letter, _ => (presented "cat" letter, input)
  | none, some fault => (misused "cat" fault.message, input)
  | none, none =>
    let files := if request.operands.isEmpty then [['-']] else request.operands
    let (result, input) := concatenate setting input files
    let result := closed result input files "cat: closing standard input"
    let display := request.choices.foldl Display.choose {}
    if display = {} then (result, input)
    else
      let shown := display.bytes 0 0 true result.output.toList
      let errors := result.writes.filter (·.toErrors)
      ({ result with writes := { bytes := ⟨shown.toArray⟩ } :: errors }, input)

structure Extent where
  inLines : Bool := true
  count : Nat := 10
  /-- All but the last ones are shown. -/
  isElided : Bool := false
  zeroEnds : Bool := false
  headings? : Option Bool := none

def lineExtent (mark : UInt8) : Nat → List UInt8 → Nat
  | 0, _ => 0
  | _, [] => 0
  | count + 1, byte :: rest =>
    1 + lineExtent mark (if byte = mark then count else count + 1) rest

/-- The number of lines; bytes after the last mark are a line. -/
def lineCount (mark : UInt8) (bytes : List UInt8) : Nat :=
  bytes.count mark + if bytes.getLast?.all (· = mark) then 0 else 1

def Extent.size (extent : Extent) (content : ByteArray) : Nat :=
  let mark : UInt8 := if extent.zeroEnds then 0 else 10
  let bytes := content.toList
  match extent.inLines, extent.isElided with
  | true, false => lineExtent mark extent.count bytes
  | true, true => lineExtent mark (lineCount mark bytes - extent.count) bytes
  | false, false => min extent.count content.size
  | false, true => content.size - extent.count

def multiplier? : Text → Option Nat
  | [] => some 1
  | ['b'] => some 512
  | letter :: base =>
    let power? := match letter with
      | 'k' | 'K' => some 1
      | 'm' | 'M' => some 2
      | 'G' => some 3
      | 'T' => some 4
      | 'P' => some 5
      | 'E' => some 6
      | 'Z' => some 7
      | 'Y' => some 8
      | 'R' => some 9
      | 'Q' => some 10
      | _ => none
    match power?, base with
    | some power, [] | some power, ['i', 'B'] => some (1024 ^ power)
    | some power, ['B'] => some (1000 ^ power)
    | _, _ => none

def maxCount : Nat := 2 ^ (64 : Nat)

def Extent.count? (extent : Extent) (inLines : Bool) (value : Text) : Except Text Extent :=
  let (isElided, number) : Bool × Text := match value with
    | '-' :: number => (true, number)
    | number => (false, number)
  let unsigned := match number.dropWhile (· = ' ') with
    | '+' :: unsigned => unsigned
    | unsigned => unsigned
  let digits := unsigned.takeWhile Char.isDigit
  let unit : Text := if inLines then "lines" else "bytes"
  let refusal := "invalid number of " ++ unit ++ ": " ++ quotedValue number
  match digits.isEmpty, multiplier? (unsigned.dropWhile Char.isDigit) with
  | false, some factor =>
    let count := Nat.ofDigitChars 10 digits 0 * factor
    if maxCount ≤ count then .error (refusal ++ ": Value too large for defined data type")
    else .ok { extent with inLines := inLines, count := count, isElided := isElided }
  | _, _ => .error refusal

def Extent.choose (extent : Extent) (choice : Choice) : Except Text Extent :=
  match choice.letter with
  | 'c' => extent.count? false choice.value
  | 'n' => extent.count? true choice.value
  | 'q' => .ok { extent with headings? := some false }
  | 'v' => .ok { extent with headings? := some true }
  | 'z' => .ok { extent with zeroEnds := true }
  | _ => .ok extent

def headRules : List OptionRule := [
  { letter := 'c', long := some "bytes", hasValue := true },
  { letter := 'n', long := some "lines", hasValue := true },
  { letter := 'q', long := some "quiet" },
  { letter := 'q', long := some "silent" },
  { letter := 'v', long := some "verbose" },
  { letter := 'z', long := some "zero-terminated" }] ++ commonRules

def lateNumber (c : Char) : Text := "invalid trailing option -- " ++ [c]

def Extent.trailing (extent : Extent) : Text → Except Text Extent
  | [] => .ok extent
  | letter :: rest =>
    match letter with
    | 'c' => trailing { extent with inLines := false } rest
    | 'l' => trailing { extent with inLines := true } rest
    | 'b' => trailing { extent with inLines := false, count := extent.count * 512 } rest
    | 'k' => trailing { extent with inLines := false, count := extent.count * 1024 } rest
    | 'm' =>
      trailing { extent with inLines := false, count := extent.count * 1024 ^ (2 : Nat) } rest
    | 'q' => trailing { extent with headings? := some false } rest
    | 'v' => trailing { extent with headings? := some true } rest
    | 'z' => trailing { extent with zeroEnds := true } rest
    | c => .error (lateNumber c)

/-- The extent and the other arguments, where the first argument may be a number of lines. -/
def numbered (arguments : List Text) : Except Text (Extent × List Text) :=
  match arguments with
  | ('-' :: digit :: text) :: rest =>
    if digit.isDigit then
      let digits := (digit :: text).takeWhile Char.isDigit
      match Extent.trailing { count := Nat.ofDigitChars 10 digits 0 }
          ((digit :: text).dropWhile Char.isDigit) with
      | .error e => .error e
      | .ok extent => .ok (extent, rest)
    else .ok ({}, arguments)
  | _ => .ok ({}, arguments)

def heads (setting : Setting) (extent : Extent) (headed isFirst : Bool) (input : Input) :
    List Text → Result × Input
  | [] => ({}, input)
  | file :: files =>
    let name := if file = ['-'] then "standard input".toList else file
    let heading : Result :=
      if headed then
        .printed ((if isFirst then [] else ['\n']) ++ "==> " ++ name ++ " <==\n")
      else {}
    let (first, isFirst, input) : Result × Bool × Input :=
      match content setting input file with
      | .error (.reading reason) =>
        (heading.append (.failed ("head: error reading " ++ quoted name ++ ": " ++
          reason ++ ['\n'])), isFirst && !headed, input)
      | .error (.opening reason) =>
        (.failed ("head: cannot open " ++ quoted file ++ " for reading: " ++
          reason ++ ['\n']), isFirst, input)
      | .ok content =>
        let size := extent.size content
        let shown : Result := .shown (content.extract 0 size)
        -- Bytes are read as they are wanted, lines in blocks that a pipe cannot take back.
        let taken := if extent.inLines ∧ input.file?.isNone then content.size else size
        let rest : Input := { input with bytes := content.extract taken content.size }
        (heading.append shown, isFirst && !headed, if isInput file then rest else input)
    let (others, input) := heads setting extent headed isFirst input files
    (first.append others, input)

def head : Tool := fun setting arguments input =>
  match numbered arguments with
  | .error e => (misused "head" e, input)
  | .ok (extent, arguments) =>
    let request := OptionRule.read headRules arguments
    -- An option takes effect before a later one is looked at.
    let before := request.choices.takeWhile fun choice =>
      choice.letter ≠ 'H' ∧ choice.letter ≠ 'V'
    match before.foldlM Extent.choose extent with
    | .error e => (.failed ("head: " ++ e ++ ['\n']), input)
    | .ok extent =>
      match presentation? request.choices, request.fault? with
      | some letter, _ => (presented "head" letter, input)
      | none, some (.unknownLetter letter) =>
        (misused "head" (if letter.isDigit then lateNumber letter
          else (OptionFault.unknownLetter letter).message), input)
      | none, some fault => (misused "head" fault.message, input)
      | none, none =>
        let files := if request.operands.isEmpty then [['-']] else request.operands
        let isHeaded := extent.headings?.getD (1 < files.length)
        let (result, input) := heads setting extent isHeaded true input files
        (closed result input files "head: -", input)

def succeed : Tool := fun _ _ input => ({}, input)

def fail : Tool := fun _ _ input => ({ code := 1 }, input)

def find? (name : Text) : Option Tool :=
  match String.ofList name with
  | "true" => some succeed
  | "false" => some fail
  | "cat" => some cat
  | "head" => some head
  | _ => none

end Tool

end ComponentPack.Host
