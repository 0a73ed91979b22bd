import ComponentPack.Host.Shell.Argument
import ComponentPack.Host.Shell.Directory
import ComponentPack.Host.Shell.Format
import ComponentPack.Host.Shell.Line
import ComponentPack.Host.Shell.Program
import ComponentPack.Host.Shell.Signal
import ComponentPack.Host.Shell.Test

/-!
Running the commands of scripts. Commands hold others and run scripts, so the functions are given
what runs those; only `Shell.run` calls itself, each time with less fuel. Without fuel the time is
up.
-/

namespace ComponentPack.Host

open Files Script

namespace Shell

/-- The commands of the shell whose failure ends the script. -/
def isSpecial (name : Text) : Bool :=
  String.ofList name ∈ [":", ".", "break", "continue", "eval", "exec", "exit", "export", "readonly",
    "local", "return", "set", "shift", "times", "trap", "unset"]

def stopLoops (shell : Shell) (words : List Text) (stop : Nat → Stop) : Shell :=
  shell.withNumber words.head? 1 fun count =>
    let done := { shell with code := 0 }
    if count = 0 then shell.abort "Illegal number: 0"
    else if shell.loops = 0 then done
    else { done with stop := some (stop (min count shell.loops)) }

def runFile (run : Shell → Text → Shell) (shell : Shell) (words : List Text) : Shell :=
  match words with
  | [] => { shell with code := 0 }
  | file :: _ =>
    if !file.any (· = '/') then shell.abort (file ++ ": not found")
    else
      match shell.disk.read ⟨Text.gather file⟩ with
      | .error e =>
        shell.abort ("cannot open " ++ file ++ ": " ++ describe "No such file" e)
      | .ok content =>
        let ended := run { shell with code := 0, speaker := some file } (Text.ofRow content)
        if ended.stop = some .back then { ended with stop := none } else ended

def builtin? (run : Shell → Text → Shell) (shell : Shell) (name : Text)
    (arguments : List Text) : Option Shell :=
  let done : Shell := { shell with code := 0 }
  match String.ofList name with
  | ":" | "true" => some done
  | "false" => some { shell with code := 1 }
  | "echo" => some (shell.shown (Escape.echo arguments))
  | "printf" => some (shell.reported (Format.printf arguments))
  | "test" => some (shell.reported (Test.test shell.disk arguments))
  | "[" => some (shell.reported (Test.bracket shell.disk arguments))
  | "exit" =>
    some (shell.withNumber arguments.head? shell.code fun code =>
      { shell with code := code, stop := some .exit })
  | "return" =>
    some (shell.withNumber arguments.head? shell.code fun code =>
      { shell with code := code, stop := some .back })
  | "break" => some (shell.stopLoops arguments .leave)
  | "continue" => some (shell.stopLoops arguments .resume)
  | "set" => some (shell.setCommand arguments)
  | "shift" => some (shell.shift arguments)
  | "export" => some (shell.declare .exported arguments)
  | "readonly" => some (shell.declare .fixed arguments)
  | "local" => some (shell.declare .inner arguments)
  | "unset" => some (shell.forget arguments)
  | "alias" => some (shell.aliasCommand arguments)
  | "unalias" => some (shell.unalias arguments)
  | "read" => some (shell.readLine arguments)
  | "getopts" => some (shell.nextArgument arguments)
  | "cd" | "chdir" => some (shell.changeDirectory arguments)
  | "pwd" => some (shell.showDirectory arguments)
  | "kill" => some (shell.kill arguments)
  | "trap" => some (shell.trap arguments)
  | "wait" => some (shell.wait arguments)
  | "jobs" => some (shell.withSwitches "lp" "" arguments fun _ _ => done)
  | "fg" | "bg" => some (shell.noJobs arguments)
  | "hash" => some (shell.hash arguments)
  | "umask" => some (shell.umask arguments)
  | "ulimit" => some (shell.shown "unlimited\n")
  | "times" => some (shell.shown "0m0.00s 0m0.00s\n0m0.00s 0m0.00s\n")
  | "eval" =>
    let script := List.intercalate [' '] arguments
    some { run { done with speaker := some name } script with speaker := shell.speaker }
  | "." => some (shell.runFile run arguments)
  | _ => none

def isBuiltin (shell : Shell) (name : Text) : Bool :=
  (shell.builtin? (fun shell _ => shell) name []).isSome ||
    name ∈ ["command".toList, "type".toList, "exec".toList]

/-- An error ends a command of the shell, and the script only if the command is special. -/
def recovered (shell : Shell) (isSpecial : Bool) : Shell :=
  if shell.stop = some .failure ∧ !isSpecial then { shell with stop := none } else shell

/-- What a name stands for as a command, in a word and in more words; programs that are found are
remembered. -/
def meaning (shell : Shell) (name : Text) : Shell × Option (Text × Text) :=
  let named (text : String) : Option (Text × Text) := some (name, text.toList)
  if name ∈ Token.keywords then (shell, named "a shell keyword")
  else
    match shell.aliases.find? fun (known, _) => known = name with
    | some (_, text) =>
      (shell, some ("alias " ++ name ++ '=' :: quotedText text,
        "an alias for " ++ text))
    | none =>
      if shell.functions.any fun (known, _) => known = name then (shell, named "a shell function")
      else if isSpecial name then (shell, named "a special shell builtin")
      else if shell.isBuiltin name then (shell, named "a shell builtin")
      else if isProgram name then
        let path := programPath name
        let isKnown := decide (name ∈ shell.located)
        (shell.noteProgram name,
          some (path, if isKnown then "a tracked alias for " ++ path else path))
      else if name.any (· = '/') ∧
          (isProgram (programName name) ∨ shell.disk.doesExist ⟨Text.gather name⟩) then
        (shell, some (name, name))
      else (shell, none)

def explain (shell : Shell) (inWords : Bool) (names : List Text) : Shell :=
  names.foldl (fun shell name =>
    let (shell, meaning?) := shell.meaning name
    let (text, code) : Text × Nat := match meaning?, inWords with
      | some (_, meaning), true => (name ++ " is " ++ meaning ++ ['\n'], shell.code)
      | some (word, _), false => (word ++ ['\n'], shell.code)
      | none, true => (name ++ ": not found\n", 127)
      | none, false => ([], 127)
    { shell.print 1 text with code := code }) { shell with code := 0 }

def maxCalls : Nat := 1000

def call (runner : Runner) (isTested : Bool) (shell : Shell) (body : Command)
    (arguments : List Text) : Shell :=
  if maxCalls ≤ shell.calls then
    shell.abort "Maximum function recursion depth (1000) reached"
  else
    let ended := runner.command isTested
      { shell with
        arguments := arguments
        loops := 0
        calls := shell.calls + 1
        hidden? := some []
        hiddenOptions? := none } body
    let ended := (ended.hidden?.getD []).foldl
      (fun ended (name, value?) => ended.restore name value?) ended
    { ended with
      arguments := shell.arguments
      loops := shell.loops
      calls := shell.calls
      hidden? := shell.hidden?
      options := ended.hiddenOptions?.getD ended.options
      hiddenOptions? := shell.hiddenOptions?
      stop := if ended.stop = some .back then none else ended.stop }

def perform (runner : Runner) (isTested : Bool) (shell : Shell) (isPlain : Bool)
    (name : Text) (arguments : List Text) : Shell :=
  let run : Shell → Text → Shell := runScript (runner.command isTested)
  let special := isPlain && isSpecial name
  let body? := shell.functions.find? fun (known, _) => isPlain && !special && known = name
  match body? with
  | some (_, body) => shell.call runner isTested body arguments
  | none =>
    match { shell with speaker := some name }.builtin? run name arguments with
    | some ended => { ended.recovered special with speaker := shell.speaker }
    | none => shell.runProgram run name arguments

/-- Runs the command that follows `command`, or tells what it is. -/
def performDirectly (runner : Runner) (isTested : Bool) (shell : Shell) (words : List Text) :
    Shell :=
  let spoken := { shell with speaker := some "command" }
  let ended := spoken.withSwitches "pvV" "" words fun switches words =>
    match words, switches.find? fun switch => switch.letter ≠ 'p' with
    | [], _ => { shell with code := 0 }
    | name :: _, some switch => shell.explain (switch.letter = 'V') [name]
    | name :: arguments, none => shell.perform runner isTested false name arguments
  { ended.recovered false with speaker := shell.speaker }

def replaced (runner : Runner) (isTested : Bool) (shell : Shell) (name : Text)
    (arguments : List Text) : Shell :=
  let run : Shell → Text → Shell := runScript (runner.command isTested)
  let plain := programName name
  if plain = "sh" then
    let ended := shell.runShell run arguments
    let joined := shell.joined { ended with stop := none }
    { joined with
      stop := match ended.stop with
        | some (.signal number) => some (.signal number)
        | some .timeout => some .timeout
        | _ => some .exit
      traps := [] }
  else
    let isFound := isProgram plain || plain = "echo"
    let shell := { shell with speaker := some "exec" }
    let ended :=
      if isFound then shell.runProgram run name arguments
      else
        let (reason, code) := shell.startTrouble name
        let code := if reason = "not found" then code else 126
        shell.reject code (name ++ ": " ++ reason)
    { ended with
      stop := ended.stop.or (some .exit)
      traps := if isFound then [] else ended.traps }

def performWords (runner : Runner) (isTested : Bool) (shell : Shell) (words : List Text) :
    Shell :=
  match words with
  | [] => shell
  | name :: arguments =>
    match String.ofList name, arguments with
    | "command", words => shell.performDirectly runner isTested words
    | "type", names => shell.explain true names
    | "exec", [] => { shell with code := 0 }
    | "exec", program :: arguments => shell.replaced runner isTested program arguments
    | _, arguments => shell.perform runner isTested true name arguments

def assignAll (runner : Runner) (shell : Shell) (assignments : List (Text × Word)) :
    Shell × List (Text × Text) :=
  assignments.foldl (fun (shell, before) (name, word) =>
    if shell.stop.isSome then (shell, before)
    else
      let (shell, value) := shell.valueText runner word
      if shell.stop.isSome then (shell, before)
      else (shell.assign name value, before ++ [(name, value)])) (shell, [])

/-- Shows a command with the variables that it sets, where errors went before its
redirections. -/
def showCommand (runner : Runner) (shell : Shell) (streams : List (Nat × Nat))
    (values : List (Text × Text)) (words : List Text) : Shell :=
  if shell.hasOption 'x' ∧ shell.stop.isNone then
    let start := Word.ofDocument ((shell.value? "PS4").getD [])
    let (shown, start) := (shell.setOption 'x' false).documentText runner start
    let settings := values.map fun (name, value) => name ++ '=' :: value
    let line := start ++ List.intercalate [' '] (settings ++ words) ++ ['\n']
    (shown.setOption 'x' true).withStreams streams fun shell => shell.print 2 line
  else shell

def runSimple (runner : Runner) (isTested : Bool) (shell : Shell) (line : Nat)
    (assignments : List (Text × Word)) (words : List Word) (redirects : List Redirect) : Shell :=
  let shell := { shell with line := line, outputCode := 0 }
  let (shell, words) := shell.wordFields runner words
  if shell.stop.isSome then shell
  else
    let special := words.head?.any isSpecial
    match shell.redirectAll runner redirects with
    | .error failed =>
      { failed with stop := if special then failed.stop.or (some .failure) else failed.stop }
    | .ok redirected =>
      let (assigned, values) := redirected.assignAll runner assignments
      let assigned := assigned.showCommand runner shell.streams values words
      let ended :=
        if assigned.stop.isSome then assigned
        else if words.isEmpty then { assigned with code := assigned.outputCode }
        else
          -- What is set for a command is for the programs that it runs, too.
          let exported := assignments.map Prod.fst ++ assigned.exported
          { assigned with exported := exported }.performWords runner isTested words
      -- Only `exec` without a program keeps the streams.
      let streams := if words = ["exec".toList] then redirected.streams else shell.streams
      -- What is set for one command is forgotten after it.
      let ended :=
        if words.isEmpty ∨ assignments.isEmpty ∨ special then ended
        else
          { assignments.foldl (fun ended (name, _) =>
              ended.restore name (shell.values.get? name)) ended with
            exported := shell.exported }
      { ended with streams := streams }

def runRedirected (runner : Runner) (isTested : Bool) (shell : Shell) (line : Nat)
    (command : Command) (redirects : List Redirect) : Shell :=
  match { shell with line := line }.redirectAll runner redirects with
  | .error failed => failed
  | .ok redirected => { runner.command isTested redirected command with streams := shell.streams }

def runPipe (runner : Runner) (isTested : Bool) (shell : Shell) (first second : Command) :
    Shell :=
  let run : Shell → Text → Shell := runScript (runner.command false)
  let place := shell.channels.length
  let ended := shell.apart run fun copy =>
    runner.command isTested (copy.openStream 1 (.store .empty)) first
  if ended.stop.isSome then ended
  else
    let text := ended.written place
    -- Neither command sees the exit code of the other.
    { ended with code := shell.code }.apart run fun copy =>
      runner.command isTested (copy.openStream 0 (.supply text)) second

/-- What is left of a stop outside of a loop, and whether the loop goes on. -/
def afterRound (shell : Shell) : Shell × Bool :=
  match shell.stop with
  | none => (shell, true)
  | some (.leave loops) =>
    ({ shell with stop := if loops ≤ 1 then none else some (.leave (loops - 1)) }, false)
  | some (.resume loops) =>
    if loops ≤ 1 then ({ shell with stop := none }, true)
    else ({ shell with stop := some (.resume (loops - 1)) }, false)
  | some _ => (shell, false)

/-- Runs a body at most so many times, as long as a test says; `code` is that of the last round. -/
def repeated (runner : Runner) (isTested endsOnSuccess : Bool) (test body : Command) :
    Nat → Nat → Shell → Shell
  | 0, _, shell => { shell with stop := some .timeout }
  | rounds + 1, code, shell =>
    let (tested, goesOn) := (runner.command true shell test).afterRound
    if !goesOn then tested
    else if (tested.code = 0) = endsOnSuccess then { tested with code := code }
    else
      let (ended, goesOn) := (runner.command isTested tested body).afterRound
      if goesOn then repeated runner isTested endsOnSuccess test body rounds ended.code ended
      else ended

def forEach (runner : Runner) (isTested : Bool) (name : Text) (body : Command) (shell : Shell) :
    List Text → Shell
  | [] => shell
  | word :: words =>
    let assigned := shell.assign name word
    if assigned.stop.isSome then assigned
    else
      let (ended, goesOn) := (runner.command isTested assigned body).afterRound
      if goesOn then forEach runner isTested name body ended words else ended

def isLike (runner : Runner) (shell : Shell) (text : Text) : List Word → Shell × Bool
  | [] => (shell, false)
  | word :: words =>
    let (shell, glyphs) := shell.wordGlyphs runner word
    if shell.stop.isSome then (shell, false)
    else if (Pattern.read (Glyph.letters glyphs)).accepts text then (shell, true)
    else isLike runner shell text words

def runClauses (runner : Runner) (isTested : Bool) (text : Text) (shell : Shell) :
    Command → Shell
  | .clause patterns body next =>
    let (shell, fits) := shell.isLike runner text patterns
    if shell.stop.isSome then shell
    else if fits then
      if body.isNothing then { shell with code := 0 } else runner.command isTested shell body
    else runClauses runner isTested text shell next
  | _ => { shell with code := 0 }

/-- Ends the script if a command has failed that should not. -/
def checked (shell : Shell) (isTested : Bool) : Shell :=
  if shell.code ≠ 0 ∧ shell.hasOption 'e' ∧ !isTested ∧ shell.stop.isNone then
    { shell with stop := some .exit }
  else shell

def runCommand (runner : Runner) (isTested : Bool) (shell : Shell) : Command → Shell
  | .nothing | .clause _ _ _ => shell
  | .simple line assignments words redirects =>
    (shell.runSimple runner isTested line assignments words redirects).checked isTested
  | .sequence first second =>
    runner.command isTested (runner.command isTested shell first) second
  | .both first second =>
    let tested := runner.command true shell first
    if tested.code = 0 then runner.command isTested tested second else tested
  | .either first second =>
    let tested := runner.command true shell first
    if tested.code = 0 then tested else runner.command isTested tested second
  | .negated command =>
    let ended := runner.command true shell command
    if ended.stop.isSome then ended
    else { ended with code := if ended.code = 0 then 1 else 0 }
  | .pipe first second => (shell.runPipe runner isTested first second).checked isTested
  | .subshell line command redirects =>
    let ended := shell.apart (runScript (runner.command false)) fun copy =>
      match { copy with line := line }.redirectAll runner redirects with
      | .error failed => { failed with stop := failed.stop.or (some .failure) }
      | .ok redirected => runner.command isTested redirected command
    ended.checked isTested
  | .background command =>
    shell.beside (runScript (runner.command false)) fun copy =>
      runner.command isTested copy command
  | .redirected line command redirects =>
    (shell.runRedirected runner isTested line command redirects).checked isTested
  | .branch test yes no =>
    let tested := runner.command true shell test
    if tested.stop.isSome then tested
    else if tested.code = 0 then runner.command isTested tested yes
    else if no.isNothing then { tested with code := 0 }
    else runner.command isTested tested no
  | .loop endsOnSuccess test body =>
    let ended := repeated runner isTested endsOnSuccess test body runner.fuel 0
      { shell with loops := shell.loops + 1 }
    { ended with loops := shell.loops }
  | .each line name words body =>
    let (shell, words) := { shell with line := line }.wordFields runner words
    if shell.stop.isSome then shell
    else
      let ended := forEach runner isTested name body
        { shell with
          loops := shell.loops + 1
          code := if words.isEmpty then 0 else shell.code } words
      { ended with loops := shell.loops }
  | .choose line word clauses =>
    let (shell, text) := { shell with line := line }.wordText runner word
    if shell.stop.isSome then shell
    else runClauses runner isTested text shell clauses
  | .define name body =>
    { shell with functions := (name, body) :: shell.functions, code := 0 }

/-- Runs a command; its failure may be part of a test. With the option to run nothing, nothing is
run. -/
def run : Nat → (isTested : Bool) → Shell → Command → Shell
  | 0, _, shell, _ => { shell with stop := some .timeout }
  | fuel + 1, isTested, shell, command =>
    if shell.stop.isSome ∨ shell.hasOption 'n' then shell
    else
      attended (runScript (run fuel false))
        (shell.runCommand ⟨run fuel, fuel⟩ isTested command)

/-- The greatest depth of commands and number of rounds of a loop. -/
def fuel : Nat := 20000

def execute (shell : Shell) (arguments : List Text) : Run × Disk :=
  let ended := shell.runShell (runScript (run fuel false)) arguments
  let disk := { ended.disk with home := shell.disk.home }
  let output := ended.written 1
  let errors := ended.written 2
  match ended.stop, ended.isHeld with
  | some .timeout, _ | _, true => (.timedOut, disk)
  | some (.signal number), _ => (.ended (.signal number) output errors, disk)
  | _, _ => (.ended (.exit (ended.code % 256)) output errors, disk)

end Shell

end ComponentPack.Host
