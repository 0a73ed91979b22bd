import ComponentPack.Files.Disk

/-!
Running other programs: what is asked for, and what comes of it.
-/

namespace ComponentPack

namespace Host

structure Invocation where
  program : Text
  arguments : List Text
  input : ByteArray
  /-- The time it has, in milliseconds. -/
  limit : Nat

inductive Status where
  | exit (code : Nat)
  | signal (number : Nat)
deriving DecidableEq, Repr

namespace Status

def signalNames : List String :=
  ["SIGHUP", "SIGINT", "SIGQUIT", "SIGILL", "SIGTRAP", "SIGABRT", "SIGBUS", "SIGFPE", "SIGKILL",
    "SIGUSR1", "SIGSEGV", "SIGUSR2", "SIGPIPE", "SIGALRM", "SIGTERM", "SIGSTKFLT", "SIGCHLD",
    "SIGCONT", "SIGSTOP", "SIGTSTP", "SIGTTIN", "SIGTTOU", "SIGURG", "SIGXCPU", "SIGXFSZ",
    "SIGVTALRM", "SIGPROF", "SIGWINCH", "SIGIO", "SIGPWR", "SIGSYS"]

def signalName? (number : Nat) : Option Text :=
  match number with
  | 0 => none
  | n + 1 => signalNames[n]?.map String.toList

def text : Status → Text
  | exit code => "exit status: " ++ Text.ofNat code
  | signal number =>
    "signal: " ++ Text.ofNat number ++
      match signalName? number with
      | some name => " (" ++ name ++ ")"
      | none => []

def isSuccess (status : Status) : Bool := status = exit 0

end Status

inductive Run where
  | notStarted (reason : Text)
  | timedOut
  | ended (status : Status) (output errors : ByteArray)

end Host

/-- What runs programs. They may change files. -/
abbrev Host := Host.Invocation → Files.Disk → Host.Run × Files.Disk

namespace Host

/-- A program that notes what it is given, and ends in a known way. -/
structure StandIn where
  output : Text := []
  errors : Text := []
  status : Status := .exit 0
  /-- It never ends and notes nothing. -/
  hangs : Bool := false

def StandIn.inputFile : Path := .ofString "request.json"

def StandIn.argumentFile : Path := .ofString "driver_path"

def StandIn.host (standIn : StandIn) : Host := fun invocation disk =>
  if standIn.hangs then (.timedOut, disk)
  else
    let note (disk : Files.Disk) (path : Path) (content : ByteArray) : Files.Disk :=
      (disk.write path content).toOption.getD disk
    let disk := note disk inputFile invocation.input
    let disk := note disk argumentFile (Text.toBytes (invocation.arguments.getLast?.getD []))
    (.ended standIn.status (Text.toBytes standIn.output) (Text.toBytes standIn.errors), disk)

end Host

end ComponentPack
