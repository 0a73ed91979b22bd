import ComponentPack.Host.Shell.Field

/-!
Running scripts, copies of a shell that run a part of a script, and words that stand for what
scripts write.
-/

namespace ComponentPack.Host

open Script

structure Runner where
  command : (isTested : Bool) → Shell → Command → Shell
  fuel : Nat

namespace Shell

/-- Runs at most so many lines. The aliases of a line are those that are known before it. -/
def runLines (run : Shell → Command → Shell) : Nat → Shell → Source → Shell
  | 0, shell, _ => shell
  | lines + 1, shell, source =>
    if shell.stop.isSome then shell
    else
      match { source with aliases := shell.aliases }.line? with
      | .error e => { shell with line := e.line }.abort e.message
      | .ok none => shell
      | .ok (some (command, rest)) => runLines run lines (run shell command) rest

def runScript (run : Shell → Command → Shell) (shell : Shell) (text : Text) : Shell :=
  runLines run (text.length + 1) shell (Source.ofText text)

def atEnd (run : Shell → Text → Shell) (shell : Shell) : Shell :=
  match shell.traps.find? fun (number, _) => number = 0, shell.stop with
  | _, some .timeout | _, some (.signal _) | none, _ => shell
  | some (_, script), _ =>
    let others := shell.traps.filter fun (number, _) => number ≠ 0
    let final := run { shell with stop := none, traps := others } script
    if final.stop.isSome then final else { final with code := shell.code, stop := shell.stop }

def obituary? (number : Nat) : Option String :=
  match number with
  | 1 => some "Hangup"
  | 3 => some "Quit"
  | 4 => some "Illegal instruction"
  | 5 => some "Trace/breakpoint trap"
  | 6 => some "Aborted"
  | 7 => some "Bus error"
  | 8 => some "Floating point exception"
  | 9 => some "Killed"
  | 10 => some "User defined signal 1"
  | 11 => some "Segmentation fault"
  | 12 => some "User defined signal 2"
  | 14 => some "Alarm clock"
  | 15 => some "Terminated"
  | 16 => some "Stack fault"
  | 24 => some "CPU time limit exceeded"
  | 25 => some "File size limit exceeded"
  | 26 => some "Virtual timer expired"
  | 27 => some "Profiling timer expired"
  | 29 => some "I/O possible"
  | 30 => some "Power failure"
  | 31 => some "Bad system call"
  | _ => none

/-- Goes on after another process, whose end gives the exit code. What it has read, written and done
to files stays. -/
def joined (shell ended : Shell) : Shell :=
  let shell := { shell with
    disk := { ended.disk with home := shell.disk.home }
    channels := ended.channels
    left := ended.left
    signals := ended.signals
    started := ended.started
    isHeld := ended.isHeld
    code := ended.code % 256
    stop := if ended.stop = some .timeout then some .timeout else none }
  match ended.stop with
  | some (.signal number) =>
    let shell := match obituary? number with
      | some text => shell.print 2 (text.toList ++ ['\n'])
      | none => shell
    { shell with code := 128 + number }
  | _ => shell

/-- A copy of the shell. Of what is done on signals it only knows which are ignored. -/
def copy (shell : Shell) : Shell :=
  { shell with
    traps := shell.traps.filter fun (_, script) => script.isEmpty
    isCopy := true
    jobs := [] }

def apart (run : Shell → Text → Shell) (shell : Shell) (act : Shell → Shell) : Shell :=
  shell.joined (atEnd run (act shell.copy))

def withStreams (shell : Shell) (streams : List (Nat × Nat)) (act : Shell → Shell) : Shell :=
  { act { shell with streams := streams } with streams := shell.streams }

def withoutFinalLines (text : Text) : Text :=
  (text.reverse.dropWhile (· = '\n')).reverse

/-- Runs a command apart, and gives what it writes, without zero bytes. -/
def substitution (runner : Runner) : Substitution := fun shell command =>
  let place := shell.channels.length
  let ended := shell.apart (runScript (runner.command false)) fun copy =>
    runner.command false (copy.openStream 1 (.store .empty)) command
  let text := (Text.ofRow (ended.written place)).filter fun c => c.toNat ≠ 0
  ({ ended with code := shell.code, outputCode := ended.code }, withoutFinalLines text)

def wordGlyphs (runner : Runner) (shell : Shell) (word : Word) : Shell × List Glyph :=
  shell.glyphs (substitution runner) runner.fuel false (shell.atHome false word)

def wordText (runner : Runner) (shell : Shell) (word : Word) : Shell × Text :=
  let (shell, glyphs) := shell.wordGlyphs runner word
  (shell, Glyph.text glyphs)

def documentText (runner : Runner) (shell : Shell) (word : Word) : Shell × Text :=
  let (shell, glyphs) := shell.glyphs (substitution runner) runner.fuel false word
  (shell, Glyph.text glyphs)

def valueText (runner : Runner) (shell : Shell) (word : Word) : Shell × Text :=
  let (shell, glyphs) :=
    shell.glyphs (substitution runner) runner.fuel false (shell.atHome true word)
  (shell, Glyph.text glyphs)

def takesValues (name : Text) : Bool :=
  String.ofList name ∈ ["export", "readonly", "local", "alias"]

/-- The fields of words. A value that a command is to set is not divided. -/
def wordFields (runner : Runner) (shell : Shell) (words : List Word) : Shell × List Text :=
  words.foldl (fun (shell, before) word =>
    if shell.stop.isSome then (shell, before)
    else
      let name? := before.find? fun word => word ≠ "command".toList
      match word.assignment?, name?.any takesValues with
      | some (name, value), true =>
        let (shell, text) := shell.valueText runner value
        (shell, before ++ [name ++ '=' :: text])
      | _, _ =>
        let (shell, fields) := shell.fieldsOf (substitution runner) runner.fuel word
        (shell, before ++ fields)) (shell, [])

end Shell

end ComponentPack.Host
