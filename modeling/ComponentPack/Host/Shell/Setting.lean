import ComponentPack.Host.Shell.Basic
import ComponentPack.Host.Shell.Report
import ComponentPack.Host.Shell.Switch

/-!
The commands that change what a shell knows: its options, arguments, variables and aliases.
-/

namespace ComponentPack.Host

open Script

namespace Shell

def reported (shell : Shell) (report : Report) : Shell :=
  let shell := report.complaints.foldl complain shell
  if report.text.isEmpty ∨ shell.canWriteTo 1 then
    { shell.print 1 report.text with code := report.code }
  else shell.reject 1 (shell.speaker.getD [] ++ ": I/O error")

def shown (shell : Shell) (text : Text) : Shell := shell.reported { text := text }

def withSwitches (shell : Shell) (known valued : String) (words : List Text)
    (act : List Switch → List Text → Shell) : Shell :=
  match Switch.read known.toList valued.toList words with
  | .ok (switches, words) => act switches words
  | .error e => shell.abort e

def withNumber (shell : Shell) (argument? : Option Text) (absent : Nat) (act : Nat → Shell) :
    Shell :=
  match argument? with
  | none => act absent
  | some word =>
    match Switch.number word with
    | .ok n => act n
    | .error e => shell.abort e

def chooseLetter (shell : Shell) (letter : Char) (isOn : Bool) : Except Text Shell :=
  if optionNames.any fun (_, known) => known = letter ∧ letter.isAlpha then
    let shell := shell.setOption letter isOn
    -- At most one of the two editors is chosen.
    .ok (if isOn ∧ letter = 'V' then shell.setOption 'E' false
      else if isOn ∧ letter = 'E' then shell.setOption 'V' false else shell)
  else .error ("Illegal option -" ++ [letter])

def chooseName (shell : Shell) (name : Text) (isOn : Bool) : Except Text Shell :=
  match optionNames.find? fun (known, _) => known.toList = name with
  | some (_, letter) => .ok (shell.setOption letter isOn)
  | none => .error ("Illegal option -o " ++ name)

def optionList (shell : Shell) (isOn : Bool) : Text :=
  let line (name : String) (letter : Char) : Text :=
    let name := name.toList
    if isOn then
      name ++ List.replicate (16 - name.length) ' ' ++
        (if shell.hasOption letter then "on\n" else "off\n").toList
    else
      "set " ++ (if shell.hasOption letter then "-o " else "+o ").toList ++ name ++ ['\n']
  (if isOn then "Current option settings\n".toList else []) ++
    optionNames.flatMap fun (name, letter) => line name letter

/-- Sets the options with some letters; an `o` takes the name of an option from the other words. -/
def chooseAll (isOn : Bool) : Shell → Text → List Text → Except Text (Shell × List Text)
  | shell, [], words => .ok (shell, words)
  | shell, 'o' :: letters, [] => chooseAll isOn (shell.shown (shell.optionList isOn)) letters []
  | shell, 'o' :: letters, name :: words =>
    match shell.chooseName name isOn with
    | .ok shell => chooseAll isOn shell letters words
    | .error e => .error e
  | shell, letter :: letters, words =>
    match shell.chooseLetter letter isOn with
    | .ok shell => chooseAll isOn shell letters words
    | .error e => .error e

def setAll : Nat → Shell → List Text → Except Text Shell
  | 0, shell, _ | _, shell, [] => .ok shell
  | _, shell, ['-', '-'] :: words => .ok { shell with arguments := words }
  | _, shell, ['-'] :: words =>
    let shell := (shell.setOption 'x' false).setOption 'v' false
    .ok (if words.isEmpty then shell else { shell with arguments := words })
  | size + 1, shell, (sign :: letters) :: words =>
    if sign = '-' ∨ sign = '+' then
      match chooseAll (sign = '-') shell letters words with
      | .ok (shell, words) => setAll size shell words
      | .error e => .error e
    else .ok { shell with arguments := (sign :: letters) :: words }
  | _, shell, words => .ok { shell with arguments := words }

def listed (start : Text) (name : Text) (value? : Option Text) : Text :=
  start ++ name ++ (match value? with
    | some value => '=' :: quotedText value
    | none => []) ++ ['\n']

def setCommand (shell : Shell) (words : List Text) : Shell :=
  let shell := { shell with code := 0 }
  if words.isEmpty then
    shell.shown (shell.values.entries.flatMap fun (name, value) => listed [] name (some value))
  else
    match setAll (words.length + 1) shell words with
    | .error e => shell.abort e
    | .ok changed =>
      -- There is no terminal for jobs to share.
      if changed.hasOption 'm' then
        (changed.setOption 'm' false).complain "can't access tty; job control turned off"
      else changed

def shift (shell : Shell) (words : List Text) : Shell :=
  shell.withNumber words.head? 1 fun count =>
    if shell.arguments.length < count then shell.abort "can't shift that many"
    else { shell with arguments := shell.arguments.drop count, code := 0 }

inductive Declaration where
  | exported
  | fixed
  /-- The variable belongs to the function that is called. -/
  | inner
deriving DecidableEq, Repr

def declareName (shell : Shell) (name : Text) : Declaration → Shell
  | .exported =>
    if name ∈ shell.exported then shell else { shell with exported := name :: shell.exported }
  | .fixed => if name ∈ shell.fixed then shell else { shell with fixed := name :: shell.fixed }
  | .inner =>
    { shell with
      hidden? := shell.hidden?.map fun hidden => (name, shell.values.get? name) :: hidden }

def declareWord (declaration : Declaration) (shell : Shell) (word : Text) : Shell :=
  let (name, value?) : Text × Option Text := match Text.cut? ['='] word with
    | some (name, value) => (name, some value)
    | none => (word, none)
  if shell.stop.isSome then shell
  else if declaration = .inner ∧ word = ['-'] then
    { shell with hiddenOptions? := shell.hiddenOptions?.or (some shell.options) }
  else if !isName name then shell.abort (name ++ ": bad variable name")
  else
    match value?, declaration with
    | none, _ => shell.declareName name declaration
    | some value, .inner =>
      let declared := shell.declareName name .inner
      declared.assign name value
    | some value, _ =>
      -- A value is set before it is fixed.
      let assigned := shell.assign name value
      if assigned.stop.isSome then assigned else assigned.declareName name declaration

def listDeclared (shell : Shell) (command : Text) (names : List Text) : Shell :=
  let sorted := names.mergeSort fun a b => decide (a ≤ b)
  shell.shown (sorted.flatMap fun name =>
    listed (command ++ [' ']) name (shell.values.get? name))

def declare (shell : Shell) (declaration : Declaration) (words : List Text) : Shell :=
  let shell := { shell with code := 0 }
  let declared (words : List Text) : Shell := words.foldl (declareWord declaration) shell
  match declaration with
  | .inner =>
    if shell.hidden?.isNone then shell.abort "not in a function" else declared words
  | _ =>
    shell.withSwitches "p" "" words fun switches words =>
      if !switches.isEmpty ∨ words.isEmpty then
        if declaration = .exported then shell.listDeclared "export" shell.exported
        else shell.listDeclared "readonly" shell.fixed
      else declared words

def forget (shell : Shell) (words : List Text) : Shell :=
  shell.withSwitches "vf" "" words fun switches names =>
    let ofFunctions := switches.getLast?.any fun switch => switch.letter = 'f'
    names.foldl (fun shell name =>
      if shell.stop.isSome then shell
      else if ofFunctions then
        { shell with functions := shell.functions.filter fun (known, _) => known ≠ name }
      else if !isName name then shell.abort (name ++ ": bad variable name")
      else if name ∈ shell.fixed then shell.abort (name ++ ": is read only")
      else
        { shell with
          values := shell.values.erase name
          exported := shell.exported.filter (· ≠ name) }) { shell with code := 0 }

def aliasRank (name : Text) : Nat :=
  ((name.head?.map Char.toNat).getD 0 * 16 + (name.map Char.toNat).foldr (· + ·) 0) % 39

def aliasLine (name text : Text) : Text := name ++ '=' :: quotedText text ++ ['\n']

def aliasCommand (shell : Shell) (words : List Text) : Shell :=
  let shell := { shell with code := 0 }
  if words.isEmpty then
    let sorted := shell.aliases.mergeSort fun (a, _) (b, _) => aliasRank a ≤ aliasRank b
    shell.shown (sorted.flatMap fun (name, text) => aliasLine name text)
  else
    words.foldl (fun shell word =>
      match Text.cut? ['='] (word.drop 1) with
      | some (name, text) =>
        let name := word.take 1 ++ name
        if shell.aliases.any fun (known, _) => known = name then
          { shell with
            aliases := shell.aliases.map fun (known, old) =>
              (known, if known = name then text else old) }
        else { shell with aliases := shell.aliases ++ [(name, text)] }
      | none =>
        match shell.aliases.find? fun (known, _) => known = word with
        | some (name, text) => shell.print 1 (aliasLine name text)
        | none =>
          { shell.print 2 ("alias: " ++ word ++ " not found\n") with code := 1 })
      shell

def unalias (shell : Shell) (words : List Text) : Shell :=
  let shell := { shell with code := 0 }
  shell.withSwitches "a" "" words fun switches names =>
    if !switches.isEmpty then { shell with aliases := [] }
    else
      names.foldl (fun shell name =>
        if shell.aliases.any fun (known, _) => known = name then
          { shell with aliases := shell.aliases.filter fun (known, _) => known ≠ name }
        else
          { shell.print 2 ("unalias: " ++ name ++ " not found\n") with code := 1 })
        shell

end Shell

end ComponentPack.Host
