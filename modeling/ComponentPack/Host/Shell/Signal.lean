import ComponentPack.Host.Shell.Runner
import ComponentPack.Host.Shell.Setting

/-!
Signals to a shell and to its jobs, and what the shell does on them.
-/

namespace ComponentPack.Host

namespace Shell

/-- The names of signals by their numbers; the end of the shell counts as one. -/
def signalNames : List String :=
  ["EXIT", "HUP", "INT", "QUIT", "ILL", "TRAP", "ABRT", "BUS", "FPE", "KILL", "USR1", "SEGV",
    "USR2", "PIPE", "ALRM", "TERM", "16", "CHLD", "CONT", "STOP", "TSTP", "TTIN", "TTOU", "URG",
    "XCPU", "XFSZ", "VTALRM", "PROF", "WINCH", "IO", "PWR", "SYS", "32", "33", "RTMIN", "RTMIN+1",
    "RTMIN+2", "RTMIN+3", "RTMIN+4", "RTMIN+5", "RTMIN+6", "RTMIN+7", "RTMIN+8", "RTMIN+9",
    "RTMIN+10", "RTMIN+11", "RTMIN+12", "RTMIN+13", "RTMIN+14", "RTMIN+15", "RTMAX-14",
    "RTMAX-13", "RTMAX-12", "RTMAX-11", "RTMAX-10", "RTMAX-9", "RTMAX-8", "RTMAX-7", "RTMAX-6",
    "RTMAX-5", "RTMAX-4", "RTMAX-3", "RTMAX-2", "RTMAX-1", "RTMAX"]

def signalDigits? (word : Text) : Option Nat :=
  (Expression.digits? 10 word).filter (· < signalNames.length)

def signalNumber? (word : Text) : Option Nat :=
  (signalDigits? word).or (signalNames.findIdx? fun known =>
    Text.lower known.toList = Text.lower word)

def send? (shell : Shell) (number id : Nat) : Option Shell :=
  let sent (depth : Nat) : Shell :=
    if number = 0 then shell else { shell with signals := shell.signals ++ [(depth, number)] }
  match (List.range (shell.depth + 1)).find? fun depth => processId depth = id with
  | some depth => some (sent depth)
  | none =>
    if id = 0 then some (sent shell.depth)
    else if shell.jobs.any fun job => job.id = id then
      some { shell with
        isHeld := shell.isHeld && number = 0
        jobs := shell.jobs.map fun job =>
          if job.id = id ∧ number ≠ 0 ∧ (job.code?.isNone ∨ job.left < shell.left) then
            { job with
              code? := some (128 + number), left := shell.left, signal? := some number }
          else job }
    else none

def sendAll (shell : Shell) (number : Nat) (targets : List Text) : Shell :=
  targets.foldl (fun shell target =>
    if shell.stop.isSome then shell
    else if target.head? = some '%' then shell.abort ("No such job: " ++ target)
    else
      match Switch.number (if target.head? = some '-' then target.drop 1 else target) with
      | .error e => shell.abort e
      | .ok id =>
        match shell.send? number id with
        | some shell => shell
        | none => shell.reject 1 "No such process\n") { shell with code := 0 }

def listSignals (shell : Shell) : Option Text → Shell
  | none =>
    shell.shown ('0' :: '\n' :: signalNames.tail.flatMap fun name => name.toList ++ ['\n'])
  | some word =>
    shell.withNumber (some word) 0 fun code =>
      let number := if 128 < code then code - 128 else code
      match number, signalNames[number]? with
      | _ + 1, some name => shell.shown (name.toList ++ ['\n'])
      | _, _ => shell.abort ("invalid signal number or exit status: " ++ word)

def kill (shell : Shell) (words : List Text) : Shell :=
  let misused : Shell :=
    shell.abort ("Usage: kill [-s sigspec | -signum | -sigspec] [pid | job]... or\n" ++
      "kill -l [exitstatus]")
  let sent (number : Nat) (targets : List Text) : Shell :=
    if targets.isEmpty then misused else shell.sendAll number targets
  let named? : Option Nat := match words.head? with
    | some ('-' :: name) =>
      (signalDigits? name).or ((signalNumber? name).filter (0 < ·))
    | _ => none
  match named?, words with
  | some number, _ :: targets => sent number targets
  | _, words =>
    shell.withSwitches "l" "s" words fun switches targets =>
      let names := switches.filterMap fun switch =>
        if switch.letter = 's' then some switch.value else none
      let isListed := switches.any fun switch => switch.letter = 'l'
      match names.find? fun name => (signalNumber? name).isNone, names.getLast? with
      | some name, _ => shell.abort ("invalid signal number or name: " ++ name)
      | none, some name =>
        if isListed then misused else sent ((signalNumber? name).getD 15) targets
      | none, none => if isListed then shell.listSignals targets.head? else sent 15 targets

/-- The traps in the order of their numbers, to be run again. -/
def trapList (shell : Shell) : Text :=
  let sorted := shell.traps.mergeSort fun (a, _) (b, _) => a ≤ b
  sorted.flatMap fun (number, script) =>
    "trap -- " ++ quotedText script ++ ' ' :: (signalNames[number]?.getD "").toList ++ ['\n']

/-- Keeps what is done at the end or on signals, up to a name that is none. -/
def setTraps (script? : Option Text) (shell : Shell) : List Text → Shell
  | [] => shell
  | name :: names =>
    match signalNumber? name with
    | none => { shell.print 2 ("trap: " ++ name ++ ": bad trap\n") with code := 1 }
    | some number =>
      let others := shell.traps.filter fun (known, _) => known ≠ number
      let traps := match script? with
        | some script => (number, script) :: others
        | none => others
      setTraps script? { shell with traps := traps } names

def trap (shell : Shell) (words : List Text) : Shell :=
  let shell := { shell with code := 0 }
  shell.withSwitches "" "" words fun _ words =>
    match words with
    | [] => shell.shown shell.trapList
    | [name] => shell.setTraps none [name]
    | script :: names =>
      -- A number cannot be a script.
      if (signalDigits? script).isSome then shell.setTraps none words
      else shell.setTraps (if script = ['-'] then none else some script) names

def signalled (run : Shell → Text → Shell) (shell : Shell) (number : Nat) : Shell :=
  if number = 9 then { shell with stop := some (.signal 9) }
  else if number = 19 then { shell with stop := some .timeout }
  else
    match shell.traps.find? fun (known, _) => known = number with
    | some (_, script) =>
      let ended := run shell script
      if ended.stop.isSome then ended else { ended with code := shell.code }
    | none =>
      -- Some signals mean nothing to a shell, and some make it wait.
      if number ∈ [17, 18, 23, 28] then shell
      else if number ∈ [20, 21, 22] then { shell with stop := some .timeout }
      else { shell with stop := some (.signal number) }

/-- Does what the signals to this shell do that have been sent. A copy leaves them to the shell that
it is one of. -/
def attended (run : Shell → Text → Shell) (shell : Shell) : Shell :=
  let (own, others) := shell.signals.partition fun (depth, _) => depth = shell.depth
  if shell.isCopy ∨ own.isEmpty then shell
  else
    own.foldl (fun shell (_, number) =>
      match shell.stop with
      | some .timeout | some (.signal _) => shell
      | _ =>
        let stop := shell.stop
        let ended := signalled run { shell with stop := none } number
        if ended.stop.isSome then ended else { ended with stop := stop })
      { shell with signals := others }

end Shell

end ComponentPack.Host
