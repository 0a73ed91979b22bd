import ComponentPack.Host.Shell.Runner
import ComponentPack.Host.Shell.Setting

/-!
What a shell knows of the processes that it starts: jobs that run beside it, programs that it has
found, and the permissions that new files do not get.
-/

namespace ComponentPack.Host

namespace Shell

/-- Whether something that is written reaches those who have started the shell. -/
def isHeard (shell : Shell) : Bool :=
  shell.streams.any fun (_, place) => place = 1 || place = 2

/-- Runs something beside the shell. It is done at once, and the shell goes on from the same
time. -/
def beside (run : Shell → Text → Shell) (shell : Shell) (act : Shell → Shell) : Shell :=
  let id := processId shell.depth + shell.started + 1
  let ended := shell.apart run fun copy => act (copy.openStream 0 .nothing)
  let isEndless := ended.stop = some .timeout
  let job : Job :=
    { id := id, code? := if isEndless then none else some ended.code, left := ended.left }
  { ended with
    code := 0
    stop := none
    left := shell.left
    jobs := job :: shell.jobs
    isHeld := ended.isHeld || isEndless && shell.isHeard
    lastJob? := some id
    started := ended.started + 1 }

def await (shell : Shell) (job : Job) : Shell :=
  let shell := match job.signal?.bind obituary? with
    | some text =>
      { shell.print 2 (text.toList ++ ['\n']) with
        jobs := shell.jobs.map fun (known : Job) =>
          if known.id = job.id then { known with signal? := none } else known }
    | none => shell
  match job.code? with
  | some code => { shell with code := code, left := min shell.left job.left }
  | none => { shell with stop := some .timeout }

def wait (shell : Shell) (words : List Text) : Shell :=
  shell.withSwitches "" "" words fun _ words =>
    if words.isEmpty then
      let ended := shell.jobs.foldl await shell
      if ended.stop.isSome then ended else { ended with code := 0 }
    else
      words.foldl (fun shell word =>
        if shell.stop.isSome then shell
        else if word.head? = some '%' then shell.abort ("No such job: " ++ word)
        else
          shell.withNumber (some word) 0 fun id =>
            match shell.jobs.find? fun job => job.id = id with
            | some job => shell.await job
            | none => shell) { shell with code := 127 }

def noJobs (shell : Shell) (words : List Text) : Shell :=
  shell.withSwitches "" "" words fun _ words =>
    match words with
    | [] => shell.abort "No current job"
    | word :: _ => shell.abort ("No such job: " ++ word)

def programPath (name : Text) : Text := "/usr/bin/" ++ name

def isProgram (name : Text) : Bool :=
  (Tool.find? name).isSome || name ∈ ["sh".toList, "sleep".toList]

def noteProgram (shell : Shell) (name : Text) : Shell :=
  if name ∈ shell.located then shell else { shell with located := shell.located ++ [name] }

def hash (shell : Shell) (words : List Text) : Shell :=
  let shell := { shell with code := 0 }
  shell.withSwitches "r" "" words fun switches names =>
    if !switches.isEmpty then { shell with located := [] }
    else if names.isEmpty then
      shell.shown (shell.located.flatMap fun name => programPath name ++ ['\n'])
    else
      names.foldl (fun shell name =>
        if isProgram name then shell.noteProgram name
        else shell.reject 1 (name ++ ": not found")) shell

def permissionBits (letters : Text) : Nat :=
  letters.foldl (fun bits letter =>
    bits ||| match letter with
      | 'r' => 4
      | 'w' => 2
      | 'x' => 1
      | _ => 0) 0

def permissionLetters (bits : Nat) : Text :=
  (if bits.testBit 2 then ['r'] else []) ++ (if bits.testBit 1 then ['w'] else []) ++
    if bits.testBit 0 then ['x'] else []

/-- Permissions after a change such as `g+w`, if it is one. -/
def permitted? (allowed : Nat) (change : Text) : Option Nat :=
  let who := change.takeWhile (· ∈ ['u', 'g', 'o', 'a'])
  let shifts := (if who.isEmpty then ['a'] else who).flatMap fun letter =>
    match letter with
    | 'u' => [6]
    | 'g' => [3]
    | 'o' => [0]
    | _ => [6, 3, 0]
  match change.drop who.length with
  | operator :: letters =>
    if operator ∈ ['+', '-', '='] ∧ letters.all (· ∈ ['r', 'w', 'x']) then
      let spread (bits : Nat) : Nat := shifts.foldl (fun all shift => all ||| bits <<< shift) 0
      let bits := spread (permissionBits letters)
      let without (bits : Nat) : Nat := allowed &&& (0o777 ^^^ bits)
      some (match operator with
        | '+' => allowed ||| bits
        | '-' => without bits
        | _ => without (spread 7) ||| bits)
    else none
  | [] => none

def umask (shell : Shell) (words : List Text) : Shell :=
  let shell := { shell with code := 0 }
  shell.withSwitches "S" "" words fun switches words =>
    let allowed := 0o777 ^^^ shell.mask
    match words with
    | [] =>
      if switches.isEmpty then
        let digits := Nat.toDigits 8 shell.mask
        shell.shown (List.replicate (4 - digits.length) '0' ++ digits ++ ['\n'])
      else
        shell.shown ("u=" ++ permissionLetters (allowed / 64) ++
          ",g=" ++ permissionLetters (allowed / 8) ++
          ",o=" ++ permissionLetters allowed ++ ['\n'])
    | word :: _ =>
      if word.head?.any Char.isDigit then
        match Expression.digits? 8 word with
        | some mask => { shell with mask := mask % 0o1000 }
        | none => shell.abort ("Illegal number: " ++ word)
      else
        match (Text.splitAll ',' word).foldlM permitted? allowed with
        | some allowed => { shell with mask := 0o777 ^^^ allowed }
        | none => shell.abort ("Illegal mode: " ++ word)

end Shell

end ComponentPack.Host
