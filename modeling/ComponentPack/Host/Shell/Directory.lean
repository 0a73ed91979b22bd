import ComponentPack.Host.Shell.Setting

/-!
The working directory of a shell, as it has been entered: a step up leads back over a link.
-/

namespace ComponentPack.Host

open Files Script

namespace Shell

def directory (shell : Shell) : Text := shell.directory?.getD (pathText shell.disk.home)

/-- A path without empty names and dots, where a step up takes the name before it away. -/
def tidied (path : Text) : Text :=
  let names := (Text.splitAll '/' path).foldl (fun before name =>
    if name.isEmpty ∨ name = ['.'] then before
    else if name = ['.', '.'] then before.drop 1
    else name :: before) ([] : List Text)
  if names.isEmpty then ['/'] else names.reverse.flatMap fun name => '/' :: name

def reached (shell : Shell) (path : Text) : Text :=
  if path.head? = some '/' then path else shell.directory ++ '/' :: path

def enter? (shell : Shell) (isPhysical : Bool) (path : Text) : Option Shell :=
  let logical := if isPhysical then shell.reached path else tidied (shell.reached path)
  match shell.disk.resolve .target ⟨Text.gather (if isPhysical then path else logical)⟩ with
  | .ok (.present location .directory) =>
    let entered := if isPhysical then pathText location else logical
    let names := ["OLDPWD".toList, "PWD".toList]
    let moved := { shell with
      disk := { shell.disk with home := location }
      directory? := some entered
      code := 0 }
    let moved := (names.zip [shell.directory, entered]).foldl (fun moved (name, value) =>
      if moved.stop.isSome then moved else moved.assign name value) moved
    some { moved with exported := names.filter (· ∉ moved.exported) ++ moved.exported }
  | _ => none

/-- The directories that are looked through for a path, and whether what is found there is shown. -/
def searched (shell : Shell) (path : Text) : List (Text × Bool) :=
  let isDirect := path.head? = some '/' || path ∈ [['.'], ['.', '.']] ||
    ['.', '/'].isPrefixOf path || ['.', '.', '/'].isPrefixOf path
  match shell.value? "CDPATH", isDirect with
  | some directories, false =>
    (Text.splitAll ':' directories).map (fun directory =>
      if directory.isEmpty then (path, false) else (directory ++ '/' :: path, true)) ++
      [(path, false)]
  | _, _ => [(path, false)]

def changeDirectory (shell : Shell) (words : List Text) : Shell :=
  shell.withSwitches "LP" "" words fun switches words =>
    let isPhysical := switches.getLast?.any fun switch => switch.letter = 'P'
    let value (name : String) : Text := (shell.value? name.toList).getD []
    let (path, isShown) : Text × Bool := match words with
      | [] => (value "HOME", false)
      | ['-'] :: _ => (value "OLDPWD", true)
      | path :: _ => (path, false)
    let path := if path.isEmpty then ['.'] else path
    let entered? : Option (Shell × Bool) := (shell.searched path).findSome? fun (path, isFound) =>
      (shell.enter? isPhysical path).map fun entered => (entered, isFound)
    match entered? with
    | some (entered, isFound) =>
      if (isShown ∨ isFound) ∧ entered.stop.isNone then
        entered.shown (entered.directory ++ ['\n'])
      else entered
    | none => shell.abort ("can't cd to " ++ path)

def showDirectory (shell : Shell) (words : List Text) : Shell :=
  shell.withSwitches "LP" "" words fun switches _ =>
    let isPhysical := switches.getLast?.any fun switch => switch.letter = 'P'
    shell.shown ((if isPhysical then pathText shell.disk.home else shell.directory) ++ ['\n'])

end Shell

end ComponentPack.Host
