import ComponentPack.Host.Shell.Escape
import ComponentPack.Host.Shell.Job
import ComponentPack.Host.Shell.Redirection

/-!
The programs that a shell can run, another shell among them.
-/

namespace ComponentPack.Host

open Files

namespace Shell

def duration? (text : Text) : Option Nat :=
  let whole := text.takeWhile Char.isDigit
  let rest := text.drop whole.length
  let (part, unit) : Text × Text := match rest with
    | '.' :: rest => (rest.takeWhile Char.isDigit, rest.dropWhile Char.isDigit)
    | rest => ([], rest)
  let factor? := match unit with
    | [] | ['s'] => some 1
    | ['m'] => some 60
    | ['h'] => some 3600
    | ['d'] => some 86400
    | _ => none
  if whole.isEmpty ∧ part.isEmpty then none
  else
    factor?.map fun factor =>
      (Nat.ofDigitChars 10 whole 0 * 1000 +
        Nat.ofDigitChars 10 ((part ++ "000").take 3) 0) * factor

def sleep (shell : Shell) (words : List Text) : Shell :=
  let refused (lines : List Text) : Shell :=
    shell.finish (.failed (lines ++
      ["Try 'sleep --help' for more information.".toList]
        |>.flatMap fun line => line ++ ['\n']))
  match words with
  | [] => refused ["sleep: missing operand".toList]
  | words =>
    let wrong := words.filter fun word => (duration? word).isNone
    if wrong.isEmpty then
      let time := (words.filterMap duration?).foldr (· + ·) 0
      if shell.left ≤ time then { shell with stop := some .timeout }
      else { shell with left := shell.left - time, code := 0 }
    else refused (wrong.map fun word => "sleep: invalid time interval ".toList ++ Tool.quoted word)

def programName (program : Text) : Text :=
  match ("/bin/".toList.isPrefixOf? program).or ("/usr/bin/".toList.isPrefixOf? program) with
  | some name => name
  | none => program

/-- Runs a small program. One that has something to write cannot do without its output, and `cat`
looks for it first. -/
def runTool (shell : Shell) (name : Text) (tool : Tool) (arguments : List Text) : Shell :=
  let setting : Setting := { disk := shell.disk, output? := shell.output? }
  let (result, input) := tool setting arguments shell.input
  let isCat := name = "cat"
  if shell.canWriteTo 1 ∨ !isCat ∧ result.output.isEmpty then
    (shell.setInput input).finish result
  else
    let part : Text := if isCat then ": standard output" else ": write error"
    shell.finish (.failed (name ++ part ++ ": Bad file descriptor\n"))

def isEchoOption (word : Text) : Bool :=
  match word with
  | '-' :: letter :: letters => (letter :: letters).all (· ∈ ['n', 'e', 'E'])
  | _ => false

/-- What the program `echo` writes: escapes count only if that is asked for. -/
def echoProgram (words : List Text) : Text :=
  let options := (words.takeWhile isEchoOption).flatMap (·.drop 1)
  let text := List.intercalate [' '] (words.dropWhile isEchoOption)
  let escapes := (options.filter (· ≠ 'n')).getLast? = some 'e'
  let (text, isCut) := if escapes then Escape.meant text else (text, false)
  text ++ if isCut ∨ 'n' ∈ options then [] else ['\n']

def child (shell : Shell) : Shell :=
  { disk := shell.disk
    channels := shell.channels
    streams := shell.streams
    name := "sh"
    values := shell.values.filter fun name _ => shell.exported.contains name
    exported := shell.exported
    left := shell.left
    depth := shell.depth + 1
    traps := shell.traps.filter fun (number, script) => number ≠ 0 && script.isEmpty
    signals := shell.signals
    isHeld := shell.isHeld
    mask := shell.mask : Shell }.withFirstValues

structure Startup where
  shell : Shell
  readsWord : Bool := false
  operands : List Text := []

def startup : Nat → Startup → List Text → Except Text Startup
  | 0, known, _ | _, known, [] => .ok known
  | _, known, ['-'] :: words | _, known, ['-', '-'] :: words => .ok { known with operands := words }
  | size + 1, known, (sign :: letters) :: words =>
    if sign = '-' ∨ sign = '+' then
      let choices := letters.filter fun c => c ≠ 'c' ∧ c ≠ 'l'
      match chooseAll (sign = '-') known.shell choices words with
      | .error e => .error e
      | .ok (shell, words) =>
        startup size { known with
          shell := shell
          readsWord := known.readsWord || letters.any (· = 'c') } words
    else .ok { known with operands := (sign :: letters) :: words }
  | _, known, words => .ok { known with operands := words }

/-- Runs a shell with arguments: options, then a script after `-c`, or the name of a file with one,
or a script from the input. -/
def runShell (run : Shell → Text → Shell) (shell : Shell) (arguments : List Text) : Shell :=
  let refused (code : Nat) (text : Text) : Shell :=
    shell.finish (.failedWith code ("sh: 0: " ++ text ++ ['\n']))
  let runToEnd (shell : Shell) (script : Text) : Shell := atEnd run (run shell script)
  match startup (arguments.length + 1) { shell := shell.child } arguments with
  | .error e => refused 2 e
  | .ok ⟨started, readsWord, operands⟩ =>
    match readsWord, operands with
    | true, [] => refused 2 "-c requires an argument"
    | true, [script] => runToEnd started script
    | true, script :: name :: arguments =>
      runToEnd { started with name := name, arguments := arguments } script
    | false, operands =>
      match started.hasOption 's', operands with
      | false, file :: arguments =>
        let named := { started with name := file, arguments := arguments }
        match shell.disk.read ⟨Text.gather file⟩ with
        | .ok content => runToEnd named (Text.ofRow content)
        | .error .isDirectory => { named with code := 0 }
        | .error e =>
          refused 2 ("cannot open " ++ file ++ ": " ++ describe "No such file" e)
      | _, arguments =>
        let input := started.input
        runToEnd { started.setInput { input with bytes := .empty } with arguments := arguments }
          (Text.ofRow input.bytes)

def startTrouble (shell : Shell) (name : Text) : Text × Nat :=
  let forbidden : Text := "Permission denied"
  if name.any (· = '/') then
    match shell.disk.resolve .target ⟨Text.gather name⟩ with
    | .ok (.present _ _) => (forbidden, 126)
    | _ => ("not found", 127)
  else if name.isEmpty ∨ name = ['.'] ∨ name = ['.', '.'] then (forbidden, 127)
  else ("not found", 127)

def runProgram (run : Shell → Text → Shell) (shell : Shell) (name : Text)
    (arguments : List Text) : Shell :=
  let plain := programName name
  let shell := if isProgram name then shell.noteProgram name else shell
  match Tool.find? plain, String.ofList plain with
  | some tool, _ => shell.runTool plain tool arguments
  | none, "sleep" => shell.sleep arguments
  | none, "sh" => shell.joined (shell.runShell run arguments)
  | none, "echo" => shell.shown (echoProgram arguments)
  | none, _ =>
    let (reason, code) := shell.startTrouble name
    shell.reject code (name ++ ": " ++ reason)

end Shell

end ComponentPack.Host
