import ComponentPack.Host.Shell.Setting

/-!
Reading the letters among the arguments of a script one after another: the command `getopts`. The
variable `OPTIND` tells which argument is next, and the shell remembers how many letters of the one
before it have been read.
-/

namespace ComponentPack.Host

open Script

structure Argument where
  letter : Char := '?'
  value? : Option Text := none
  complaint? : Option Text := none
  /-- The argument that is next, counted from one. -/
  next : Nat
  /-- How many characters of the argument before it have been read, if there are more. -/
  passed : Nat := 0
  isLast : Bool := false

namespace Argument

/-- Whether a letter is known, and whether it has a value. -/
def known? (letter : Char) : Text → Option Bool
  | [] => none
  | c :: ':' :: rest => if c = letter then some true else known? letter rest
  | c :: rest => if c = letter then some false else known? letter rest

def ofLetter (known : Text) (arguments : List Text) (next passed : Nat) (letter : Char)
    (rest : Text) : Argument :=
  let isSilent := known.head? = some ':'
  let left := if rest.isEmpty then 0 else passed + 1
  let refused (reported : Char) (complaint : Text) : Argument :=
    if isSilent then
      { letter := reported, value? := some [letter], next := next, passed := left }
    else { complaint? := some complaint, next := next, passed := left }
  match known? letter known with
  | none => refused '?' ("Illegal option -" ++ [letter])
  | some false => { letter := letter, value? := some [], next := next, passed := left }
  | some true =>
    if !rest.isEmpty then { letter := letter, value? := some rest, next := next }
    else
      match arguments[next - 1]? with
      | some value => { letter := letter, value? := some value, next := next + 1 }
      | none => refused ':' ("No arg for -" ++ [letter] ++ " option")

def read (known : Text) (arguments : List Text) (next passed : Nat) : Argument :=
  let current := if passed = 0 ∨ next ≤ 1 then [] else (arguments[next - 2]?.getD []).drop passed
  match current with
  | letter :: rest => ofLetter known arguments next passed letter rest
  | [] =>
    match arguments[next - 1]? with
    | some ['-', '-'] => { next := next + 1, isLast := true }
    | some ('-' :: letter :: rest) => ofLetter known arguments (next + 1) 1 letter rest
    | _ => { next := next, isLast := true }

end Argument

namespace Shell

def nextArgument (shell : Shell) (words : List Text) : Shell :=
  match words with
  | known :: name :: given =>
    let arguments := if given.isEmpty then shell.arguments else given
    let index := ((shell.value? "OPTIND").bind (Expression.digits? 10)).getD 1
    let (index, passed) := if arguments.length + 1 < index then (1, 0) else (index, shell.letters)
    let argument := Argument.read known arguments (max index 1) passed
    let shell := match argument.complaint? with
      | some complaint => shell.print 2 (complaint ++ ['\n'])
      | none => shell
    let shell := match argument.value?, argument.isLast with
      | some value, _ => shell.assign "OPTARG" value
      | none, false => { shell with values := shell.values.erase "OPTARG" }
      | none, true => shell
    let shell := shell.assign "OPTIND" (Text.ofNat argument.next)
    let shell :=
      if !isName name then shell.abort (name ++ ": bad variable name")
      else shell.assign name [argument.letter]
    let shell := { shell with letters := argument.passed }
    if shell.stop.isSome then shell else { shell with code := if argument.isLast then 1 else 0 }
  | _ => shell.abort "Usage: getopts optstring var [arg...]"

end Shell

end ComponentPack.Host
