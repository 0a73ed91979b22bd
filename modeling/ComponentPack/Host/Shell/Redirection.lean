import ComponentPack.Host.Shell.Runner

/-!
Redirections of the streams of a command.
-/

namespace ComponentPack.Host

open Files Script

/-- A redirection whose words have been replaced by what they stand for. -/
inductive Redirected where
  | file (stream : Nat) (opening : Opening) (file : Text)
  /-- A stream without a source is closed. -/
  | copy (stream : Nat) (source? : Option Nat)
  | document (stream : Nat) (text : Text)
deriving DecidableEq, Repr

namespace Shell

def describe (missing : String) : Fault → Text
  | .notFound | .notDirectory => missing.toList
  | e => e.reason

def device? (file : Text) : Option Nat :=
  match String.ofList file with
  | "/dev/stdin" | "/dev/fd/0" => some 0
  | "/dev/stdout" | "/dev/fd/1" => some 1
  | "/dev/stderr" | "/dev/fd/2" => some 2
  | _ => none

def createFile (shell : Shell) (path : Path) (opening : Opening) :
    Except Fault (Shell × Channel) :=
  let content := match shell.disk.read path, opening with
    | .ok content, .append | .ok content, .both => content
    | _, _ => .empty
  match shell.disk.write path content with
  | .error e => .error e
  | .ok disk =>
    match disk.resolve .target path with
    | .ok (.present location _) =>
      .ok ({ shell with disk := disk },
        .file location 0 (opening = .both) true (opening = .append))
    | _ => .ok ({ shell with disk := disk }, .nothing)

def openFile (shell : Shell) (stream : Nat) (opening : Opening) (file : Text) :
    Except Text Shell :=
  let path : Path := ⟨Text.gather file⟩
  let cannot (verb : String) (reason : Text) : Text :=
    "cannot " ++ verb.toList ++ [' '] ++ file ++ ": " ++ reason
  let isKept : Bool := match shell.disk.read path with
    | .ok _ => opening = .write ∧ shell.hasOption 'C'
    | .error _ => false
  if file = "/dev/null" then .ok (shell.openStream stream .nothing)
  else if let some copied := (device? file).bind (shell.copyStream? stream) then .ok copied
  else if opening = .read then
    match shell.disk.resolve .target path, shell.disk.read path with
    | .ok (.present location _), .ok _ =>
      .ok (shell.openStream stream (.file location 0 true false false))
    -- A directory can be opened, but not read.
    | _, .error .isDirectory => .ok (shell.openStream stream .directory)
    | _, .error e => .error (cannot "open" (describe "No such file" e))
    | _, .ok _ => .ok (shell.openStream stream .nothing)
  else if isKept then .error (cannot "create" "File exists")
  else
    match shell.createFile path opening with
    | .ok (shell, channel) => .ok (shell.openStream stream channel)
    | .error e => .error (cannot "create" (describe "Directory nonexistent" e))

def redirection (runner : Runner) (shell : Shell) : Redirect → Shell × Redirected
  | .file stream opening word =>
    let (shell, file) := shell.wordText runner word
    (shell, .file stream opening file)
  | .copy stream word =>
    let (shell, source) := shell.wordText runner word
    if source = ['-'] then (shell, .copy stream none)
    else
      match source with
      | [c] =>
        if c.isDigit then (shell, .copy stream (some (c.toNat - '0'.toNat)))
        else (shell.abort "Syntax error: Bad fd number", .copy stream none)
      | _ =>
        (if shell.stop.isSome then shell else shell.abort "Syntax error: Bad fd number",
          .copy stream none)
  | .document stream word =>
    let (shell, text) := shell.documentText runner word
    (shell, .document stream text)

def redirect (shell : Shell) : Redirected → Except Shell Shell
  | .file stream opening file =>
    match shell.openFile stream opening file with
    | .error e => .error (shell.reject 2 e)
    | .ok shell => .ok shell
  | .copy stream none => .ok (shell.closeStream stream)
  | .copy stream (some source) =>
    match shell.copyStream? stream source with
    | some shell => .ok shell
    | none =>
      -- The stream is closed before, so errors themselves are lost.
      .error ((shell.closeStream stream).reject 2
        (Text.ofNat source ++ ": Bad file descriptor"))
  | .document stream text => .ok (shell.openStream stream (.supply (Text.toRow text)))

/-- Applies redirections from left to right, after all words have been replaced. A redirection that
fails leaves the streams as they were. -/
def redirectAll (runner : Runner) (shell : Shell) (redirects : List Redirect) :
    Except Shell Shell :=
  let (replaced, targets) := redirects.foldl (fun (shell, before) redirect =>
    if shell.stop.isSome then (shell, before)
    else
      let (shell, target) := shell.redirection runner redirect
      (shell, before ++ [target])) (shell, [])
  if replaced.stop.isSome then .error replaced
  else
    match targets.foldlM redirect replaced with
    | .ok redirected => .ok redirected
    | .error failed => .error { failed with streams := shell.streams }

end Shell

end ComponentPack.Host
