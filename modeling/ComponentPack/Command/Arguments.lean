import ComponentPack.Command.Run

/-!
The arguments of the command line. Options of the program stand before the name of the command,
options of the command after it. Each may be given once.
-/

namespace ComponentPack.Command

inductive Role where
  | flag
  | value
  | shows
deriving DecidableEq, Repr

/-- An option: its long name, its letter, and what it does. -/
structure Switch where
  name : Text
  letter : Option Char
  role : Role
deriving DecidableEq, Repr

/-- Options that have been given, with their values; a flag has an empty one. -/
abbrev Given := List (Text × Text)

def Given.has (given : Given) (name : String) : Bool := given.any fun (key, _) => key = name.toList

def Given.value? (given : Given) (name : String) : Option Text :=
  (given.find? fun (key, _) => key = name.toList).map Prod.snd

/-- What reading options leads to. A result that may still be refused is given as an option. -/
inductive Reading where
  | ended (given? : Option Given)
  | word (given? : Option Given) (word : Text) (rest : List Text)
  | shown (name : Text)
  | refused

/-- Whether an argument is an option and cannot be a value; a single dash can. -/
def isOption (argument : Text) : Bool := argument.head? = some '-' && argument ≠ ['-']

inductive Cluster where
  | done (given : Given)
  /-- The last option needs a value, which is not there yet. -/
  | lacking (given : Given) (name : Text)
  | shown (name : Text)
  | refused

def give? (given : Given) (switch : Switch) (value : Text) : Option Given :=
  if given.any fun (key, _) => key = switch.name then none
  else if switch.role = .value ∧ value.isEmpty then none
  else some ((switch.name, value) :: given)

def dropEquals : Text → Text
  | '=' :: rest => rest
  | text => text

def cluster (switches : List Switch) (given : Given) : Text → Cluster
  | [] => .done given
  | c :: rest =>
    match switches.find? fun switch => switch.letter = some c with
    | none => .refused
    | some switch =>
      match switch.role with
      | .shows => .shown switch.name
      | .flag =>
        match give? given switch [] with
        | none => .refused
        | some given => cluster switches given rest
      | .value =>
        if rest.isEmpty then .lacking given switch.name
        else
          match give? given switch (dropEquals rest) with
          | none => .refused
          | some given => .done given

def splitLong (body : Text) : Text × Option Text :=
  match Text.cut? ['='] body with
  | some (name, value) => (name, some value)
  | none => (body, none)

/-- Reads options. A value that is an argument of its own is looked at when the next option is read
or all are: until then it is open whether the options are `given?` or refused. -/
def readOptions (switches : List Switch) (given? : Option Given) : List Text → Reading
  | [] => .ended given?
  | argument :: rest =>
    if argument = ['-', '-'] then if rest.isEmpty then .ended given? else .refused
    else if !isOption argument then .word given? argument rest
    else if let some given := given? then
      let found : Cluster :=
        match argument with
        | '-' :: '-' :: body =>
          let (name, value?) := splitLong body
          match switches.find? fun switch => switch.name = name with
          | none => .refused
          | some switch =>
            match switch.role, value? with
            | .shows, none => .shown name
            | .flag, none => ((give? given switch []).map Cluster.done).getD .refused
            | .value, some value => ((give? given switch value).map Cluster.done).getD .refused
            | .value, none => .lacking given name
            | _, some _ => .refused
        | _ => cluster switches given argument.tail
      match found with
      | .done given => readOptions switches (some given) rest
      | .shown name => .shown name
      | .refused => .refused
      | .lacking given name =>
        match rest with
        | [] => .refused
        | value :: rest =>
          if isOption value then .refused
          else readOptions switches (give? given ⟨name, none, .value⟩ value) rest
    else .refused

def helpSwitch : Switch := ⟨"help", some 'h', .shows⟩

def directorySwitch : Switch := ⟨"dir", some 'd', .value⟩

def programSwitches : List Switch := [
  ⟨"config", some 'c', .value⟩,
  ⟨"verbose", some 'v', .flag⟩,
  helpSwitch,
  ⟨"version", some 'V', .shows⟩]

def names : List Text := ["init", "build", "i18n", "help"].map String.toList

def command? (name : Text) : Option (List Switch × (Given → Command)) :=
  match String.ofList name with
  | "init" =>
    some ([⟨"yes", some 'y', .flag⟩, helpSwitch], fun given => .init (given.has "yes"))
  | "build" =>
    some ([⟨"release", none, .flag⟩, ⟨"minify", none, .flag⟩, directorySwitch,
        helpSwitch],
      fun given => .build (given.has "release") (given.has "minify")
        ((given.value? "dir").map Path.mk))
  | "i18n" =>
    some ([directorySwitch, helpSwitch],
      fun given => .languages ((given.value? "dir").map Path.mk))
  | _ => none

inductive Request where
  | run (command : Command) (config : Path) (verbose : Bool)
  | help
  | version
  | refused
deriving DecidableEq, Repr

def Request.ofShown (name : Text) : Request := if name = "version" then .version else .help

/-- Reads the arguments of the program. What shows a text comes before a refusal of the last value
in front of the command. -/
def Request.ofArguments (arguments : List Text) : Request :=
  match readOptions programSwitches (some []) arguments with
  | .shown name => .ofShown name
  | .ended _ | .refused => .refused
  | .word given? word rest =>
    if word = "help" then
      match rest with
      | [] => .help
      | [name] => if names.contains name then .help else .refused
      | _ => .refused
    else
      match command? word with
      | none => .refused
      | some (switches, make) =>
        match readOptions switches (some []) rest, given? with
        | .shown name, _ => .ofShown name
        | .ended (some options), some given =>
          .run (make options) (((given.value? "config").map Path.mk).getD standardConfig)
            (given.has "verbose")
        | _, _ => .refused

structure Ending where
  code : Nat
  error : Option CommandError := none
  disk : Files.Disk
  log : Log := []

def Ending.complaint? (ending : Ending) : Option Text :=
  ending.error.map fun e => "Error: " ++ e.message

/-- Runs the program: wrong usage ends with 2, a command that fails with 1. -/
def runProgram (arguments : List Text) (host : Host) (disk : Files.Disk) : Ending :=
  match Request.ofArguments arguments with
  | .help | .version => { code := 0, disk := disk }
  | .refused => { code := 2, disk := disk }
  | .run command config _ =>
    let outcome := command.run host config disk
    match outcome.result with
    | .ok () => { code := 0, disk := outcome.disk, log := outcome.log }
    | .error e => { code := 1, error := some e, disk := outcome.disk, log := outcome.log }

end ComponentPack.Command
