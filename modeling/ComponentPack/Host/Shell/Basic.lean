import ComponentPack.Host.Script.Reading
import ComponentPack.Host.Tools

/-!
A shell at work: what it knows, and where its streams lead. Text is bytewise: each character stands
for one byte.
-/

namespace ComponentPack.Host

open Files Script

inductive Stop where
  | exit
  | failure
  | signal (number : Nat)
  | timeout
  /-- So many loops are left. -/
  | leave (loops : Nat)
  /-- All but one of so many loops are left, and that one goes on. -/
  | resume (loops : Nat)
  | back
deriving DecidableEq, Repr

inductive Channel where
  /-- Bytes that are gone when they have been read. -/
  | supply (bytes : ByteArray)
  | store (bytes : ByteArray)
  /-- A file that is read or written from an offset on, or only at its end. -/
  | file (location : Location) (offset : Nat) (reads writes appends : Bool)
  | directory
  | nothing

structure Job where
  id : Nat
  code? : Option Nat
  left : Nat
  /-- The signal that has ended it, if nothing has been said of that yet. -/
  signal? : Option Nat := none

structure Shell where
  disk : Disk
  /-- What streams can lead to: at first the input, the output and the errors. -/
  channels : List Channel
  /-- The streams that are open, and the places of what they lead to. -/
  streams : List (Nat × Nat) := [(0, 0), (1, 1), (2, 2)]
  name : Text
  arguments : List Text := []
  values : Dictionary Text Text := .empty
  fixed : List Text := []
  exported : List Text := []
  /-- The values that variables of a function had outside of it; there are none outside of
  functions. -/
  hidden? : Option (List (Text × Option Text)) := none
  functions : List (Text × Command) := []
  aliases : List (Text × Text) := []
  options : List Char := []
  /-- The options that a function found, if it gives them back. -/
  hiddenOptions? : Option (List Char) := none
  /-- The time left, in milliseconds. -/
  left : Nat
  /-- How many shells this one runs in. -/
  depth : Nat := 0
  /-- Whether this is a copy of a shell, made for a part of its script. -/
  isCopy : Bool := false
  line : Nat := 1
  code : Nat := 0
  stop : Option Stop := none
  /-- What is run on a signal, or at the end, whose number is zero. -/
  traps : List (Nat × Text) := []
  /-- Signals that have been sent to this shell or to one that it runs in, with the depths of the
  shells. -/
  signals : List (Nat × Nat) := []
  jobs : List Job := []
  /-- A job that does not end in time can still write where the shell was asked to. -/
  isHeld : Bool := false
  lastJob? : Option Nat := none
  started : Nat := 0
  loops : Nat := 0
  calls : Nat := 0
  outputCode : Nat := 0
  /-- The command of the shell that speaks in messages. -/
  speaker : Option Text := none
  located : List Text := []
  mask : Nat := 0o022
  /-- How many letters of the argument with options have been read. -/
  letters : Nat := 0
  /-- The path of the working directory as it was entered, if that is known. -/
  directory? : Option Text := none

namespace Shell

def channel? (shell : Shell) (stream : Nat) : Option Channel :=
  match shell.streams.find? fun (number, _) => number = stream with
  | some (_, place) => shell.channels[place]?
  | none => none

def setStream (shell : Shell) (stream place : Nat) : Shell :=
  { shell with
    streams := (stream, place) :: shell.streams.filter fun (number, _) => number ≠ stream }

def copyStream? (shell : Shell) (stream source : Nat) : Option Shell :=
  (shell.streams.find? fun (number, _) => number = source).map fun (_, place) =>
    shell.setStream stream place

def closeStream (shell : Shell) (stream : Nat) : Shell :=
  { shell with streams := shell.streams.filter fun (number, _) => number ≠ stream }

def openStream (shell : Shell) (stream : Nat) (channel : Channel) : Shell :=
  { shell with channels := shell.channels ++ [channel] }.setStream stream shell.channels.length

def written (shell : Shell) (place : Nat) : ByteArray :=
  match shell.channels[place]? with
  | some (.store bytes) => bytes
  | _ => .empty

def setChannel (shell : Shell) (stream : Nat) (channel : Channel) : Shell :=
  match shell.streams.find? fun (number, _) => number = stream with
  | some (_, place) => { shell with channels := shell.channels.set place channel }
  | none => shell

def content (shell : Shell) (location : Location) : ByteArray :=
  match shell.disk.node? location with
  | some (.file content) => content
  | _ => .empty

def input (shell : Shell) : Input :=
  match shell.channel? 0 with
  | some (.supply bytes) => { bytes := bytes }
  | some (.file location offset true _ _) =>
    let content := shell.content location
    { bytes := content.extract offset content.size, file? := some (location, offset) }
  | some .directory => { fault? := some Fault.isDirectory.reason }
  | some .nothing => {}
  | _ => { fault? := some Input.notOpen }

def setInput (shell : Shell) (input : Input) : Shell :=
  match shell.channel? 0 with
  | some (.supply _) => shell.setChannel 0 (.supply input.bytes)
  | some (.file location _ true writes appends) =>
    let size := (shell.content location).size
    shell.setChannel 0 (.file location (size - input.bytes.size) true writes appends)
  | _ => shell

/-- Bytes with others written over them from an offset on. -/
def overwrite (content : ByteArray) (offset : Nat) (bytes : ByteArray) : ByteArray :=
  let before := content.extract 0 offset
  let gap : ByteArray := ⟨Array.replicate (offset - before.size) 0⟩
  before ++ gap ++ bytes ++ content.extract (offset + bytes.size) content.size

def output? (shell : Shell) : Option (Location × Nat) :=
  match shell.channel? 1 with
  | some (.file location offset _ true appends) =>
    some (location, if appends then (shell.content location).size else offset)
  | _ => none

def canWriteTo (shell : Shell) (stream : Nat) : Bool :=
  match shell.channel? stream with
  | some (.store _) | some .nothing => true
  | some (.file _ _ _ writes _) => writes
  | _ => false

def write (shell : Shell) (stream : Nat) (bytes : ByteArray) : Shell :=
  match shell.channel? stream with
  | some (.store kept) => shell.setChannel stream (.store (kept ++ bytes))
  | some (.file location offset reads true appends) =>
    let content := shell.content location
    let place := if appends then content.size else offset
    let changed := { shell with
      disk := shell.disk.setNode location (.file (overwrite content place bytes)) }
    changed.setChannel stream (.file location (place + bytes.size) reads true appends)
  | _ => shell

def print (shell : Shell) (stream : Nat) (text : Text) : Shell :=
  if text.isEmpty then shell else shell.write stream (Text.toRow text)

def finish (shell : Shell) (result : Result) : Shell :=
  { result.writes.foldl (fun shell write =>
      shell.write (if write.toErrors then 2 else 1) write.bytes) shell with
    code := result.code }

def complaint (shell : Shell) (text : Text) : Text :=
  let speaker := match shell.speaker with
    | some name => name ++ ": "
    | none => []
  shell.name ++ ": " ++ Text.ofNat shell.line ++ ": " ++ speaker ++ text ++ ['\n']

def complain (shell : Shell) (text : Text) : Shell := shell.print 2 (shell.complaint text)

def reject (shell : Shell) (code : Nat) (text : Text) : Shell :=
  { shell.complain text with code := code }

def abort (shell : Shell) (text : Text) : Shell :=
  { shell.reject 2 text with stop := some .failure }

/-- The options by their names. The last two have no letter that can be written. -/
def optionNames : List (String × Char) := [
  ("errexit", 'e'), ("noglob", 'f'), ("ignoreeof", 'I'), ("interactive", 'i'), ("monitor", 'm'),
  ("noexec", 'n'), ("stdin", 's'), ("xtrace", 'x'), ("verbose", 'v'), ("vi", 'V'), ("emacs", 'E'),
  ("noclobber", 'C'), ("allexport", 'a'), ("notify", 'b'), ("nounset", 'u'), ("privileged", 'p'),
  ("nolog", '\x01'), ("debug", '\x02')]

def hasOption (shell : Shell) (letter : Char) : Bool := shell.options.contains letter

def setOption (shell : Shell) (letter : Char) (isOn : Bool) : Shell :=
  let others := shell.options.filter (· ≠ letter)
  { shell with options := if isOn then letter :: others else others }

/-- The letters of the options that are set, those that are named last in front. -/
def optionLetters (shell : Shell) : Text :=
  (optionNames.map Prod.snd).reverse.filter fun letter => letter.isAlpha && shell.hasOption letter

def processId (depth : Nat) : Nat := 1000 * (depth + 1)

def separators (shell : Shell) : Text := (shell.values.get? "IFS").getD [' ', '\t', '\n']

def value? (shell : Shell) (name : Text) : Option Text :=
  match name with
  | ['?'] => some (Text.ofNat shell.code)
  | ['$'] => some (Text.ofNat (processId shell.depth))
  | ['#'] => some (Text.ofNat shell.arguments.length)
  | ['-'] => some shell.optionLetters
  | ['!'] => shell.lastJob?.map Text.ofNat
  | ['@'] | ['*'] => some (List.intercalate (shell.separators.take 1) shell.arguments)
  | name =>
    if name.all Char.isDigit then
      match Nat.ofDigitChars 10 name 0 with
      | 0 => some shell.name
      | n + 1 => shell.arguments[n]?
    else shell.values.get? name

def assign (shell : Shell) (name value : Text) : Shell :=
  if name ∈ shell.fixed then shell.abort (name ++ ": is read only")
  else
    { shell with
      values := shell.values.insert name value
      exported :=
        if shell.hasOption 'a' ∧ name ∉ shell.exported then name :: shell.exported
        else shell.exported
      -- Options are read from the first letter on.
      letters := if name = "OPTIND" then 0 else shell.letters }

def restore (shell : Shell) (name : Text) (value? : Option Text) : Shell :=
  { shell with
    values := match value? with
      | some value => shell.values.insert name value
      | none => shell.values.erase name }

def pathText (location : Location) : Text :=
  if location.isEmpty then ['/'] else location.flatMap fun name => '/' :: Text.spread name

def firstValues : List (Text × Text) := [
  ("PS1", ['#', ' ']),
  ("PS2", ['>', ' ']),
  ("PS4", ['+', ' '])]

def ownValues (shell : Shell) : List (Text × Text) := [
  ("IFS", [' ', '\t', '\n']),
  ("OPTIND", ['1']),
  ("PPID", Text.ofNat (if shell.depth = 0 then 1 else processId (shell.depth - 1))),
  ("PWD", pathText shell.disk.home)]

def withFirstValues (shell : Shell) : Shell :=
  let absent := firstValues.filter fun (name, _) => (shell.values.get? name).isNone
  { shell with
    values := (absent ++ shell.ownValues).foldl (fun values (name, value) =>
      values.insert name value) shell.values }

/-- A text in quotes as a script would have it: single quotes stand in double quotes. `isOpen` tells
whether quotes of the one kind or the other are open. -/
def quotedFrom (isOpen : Option Char) : Text → Text
  | [] => isOpen.toList
  | c :: rest =>
    let quote := if c = '\'' then '"' else '\''
    if isOpen = some quote then c :: quotedFrom isOpen rest
    else isOpen.toList ++ quote :: c :: quotedFrom (some quote) rest

def quotedText (text : Text) : Text :=
  if text.head?.all (· = '\'') then '\'' :: quotedFrom (some '\'') text
  else quotedFrom none text

end Shell

end ComponentPack.Host
