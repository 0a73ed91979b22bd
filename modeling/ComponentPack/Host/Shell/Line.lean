import ComponentPack.Host.Shell.Pattern
import ComponentPack.Host.Shell.Setting

/-!
Reading a line of the input into variables.
-/

namespace ComponentPack.Host

open Script

namespace Line

/-- The line that comes first, whether it is ended by a line feed, and what follows. Unless it is
`raw`, a backslash protects the next character, and joins lines. Zero bytes are dropped. -/
def first (raw isProtected : Bool) : List UInt8 → List Letter × Bool × List UInt8
  | [] => ([], false, [])
  | byte :: rest =>
    if byte = 0 then first raw isProtected rest
    else if isProtected then
      let (line, isEnded, rest) := first raw false rest
      (if byte = 10 then line else ⟨Char.ofNat byte.toNat, true⟩ :: line, isEnded, rest)
    else if byte = 92 ∧ !raw then first raw true rest
    else if byte = 10 then ([], true, rest)
    else
      let (line, isEnded, rest) := first raw false rest
      (⟨Char.ofNat byte.toNat, false⟩ :: line, isEnded, rest)

def isBlank (separators : Text) (letter : Letter) : Bool :=
  !letter.quoted && (letter.char = ' ' || letter.char = '\t' || letter.char = '\n') &&
    letter.char ∈ separators

def divides (separators : Text) (letter : Letter) : Bool :=
  !letter.quoted && letter.char ∈ separators

/-- The first field, and what comes after its end: blanks, with one other separator among them. -/
def field (separators : Text) (line : List Letter) : Text × List Letter :=
  let line := line.dropWhile (isBlank separators)
  let field := line.takeWhile fun letter => !divides separators letter
  let rest := (line.drop field.length).dropWhile (isBlank separators)
  let rest := match rest with
    | letter :: others =>
      if divides separators letter then others.dropWhile (isBlank separators) else rest
    | [] => []
  (field.map (·.char), rest)

/-- Where the end of the last field may be cut off. -/
structure Cut where
  size? : Option Nat := none
  /-- A separator that is no blank has been passed. -/
  isPassed : Bool := false
  isLong : Bool := false

def Cut.step (separators : Text) (cut : Cut) (place : Nat) (letter : Letter) : Cut :=
  if letter.quoted then cut
  else if isBlank separators letter then { cut with size? := cut.size?.or (some place) }
  else if divides separators letter then
    if cut.isPassed ∨ cut.isLong then { cut with size? := none, isLong := true }
    else { cut with size? := cut.size?.or (some place), isPassed := true }
  else { cut with size? := none, isLong := cut.isLong || cut.size?.isSome }

/-- All that is left of a line. A single field loses its end; after several fields only blanks are
dropped. -/
def remainder (separators : Text) (line : List Letter) : Text :=
  let line := line.dropWhile (isBlank separators)
  let cut := (line.zipIdx).foldl (fun cut (letter, place) => cut.step separators place letter)
    ({} : Cut)
  (line.take (cut.size?.getD line.length)).map (·.char)

/-- Divides a line among variables; the last one gets all that is left. -/
def divided (separators : Text) : List Letter → List Text → List (Text × Text)
  | _, [] => []
  | line, [name] => [(name, remainder separators line)]
  | line, name :: names =>
    let (value, rest) := field separators line
    (name, value) :: divided separators rest names

end Line

namespace Shell

def readLine (shell : Shell) (words : List Text) : Shell :=
  shell.withSwitches "r" "p" words fun switches names =>
    if names.isEmpty then shell.abort "arg count"
    else
      let raw := switches.any fun switch => switch.letter = 'r'
      let input := shell.input
      let (line, isEnded, rest) := Line.first raw false input.bytes.toList
      let shell := shell.setInput { input with bytes := ⟨rest.toArray⟩ }
      let shell := (Line.divided shell.separators line names).foldl (fun shell (name, value) =>
        if shell.stop.isSome then shell
        else if !isName name then shell.abort (name ++ ": bad variable name")
        else shell.assign name value) shell
      if shell.stop.isSome then shell else { shell with code := if isEnded then 0 else 1 }

end Shell

end ComponentPack.Host
