import ComponentPack.Command.Arguments
import ComponentPack.Host.Standard

/-!
The command line. The program is a filter: it reads the files of a project as a JSON object from
the standard input, texts by relative paths, runs a command on them, and writes the files that have
changed to the standard output in the same form, with null for a file that is gone. The log goes to
the standard error.
-/

namespace ComponentPack.Main

open Files

def home : Location := ["project"]

def diskOf (tree : Json) : Disk :=
  match tree with
  | .object members =>
    members.foldl (fun disk (name, value) =>
      match value with
      | .string text => disk.install ⟨name⟩ (.file (Text.toBytes text))
      | _ => disk) (.empty home)
  | _ => .empty home

def changes (before after : Disk) : Json :=
  .object ((after.changesSince before).map fun (name, content?) =>
    (name, match content? with
      | some content => .string (Text.ofBytes content)
      | none => .null))

def usage : String :=
  "Usage: sfcpack [-c|--config FILE] [-v|--verbose] <COMMAND>\n\n" ++
    "Commands:\n" ++
    "  init   Create a config file and an example component [-y|--yes]\n" ++
    "  build  Compile every component into a module [--release] [--minify] [-d|--dir DIR]\n" ++
    "  i18n   Export consolidated language files [-d|--dir DIR]\n"

def version : String := "sfcpack 0.1.0"

/-- The entries that are shown: those for finding errors only on request. -/
def shownEntries (verbose : Bool) (log : Log) : Log :=
  log.filter fun entry => verbose || entry.level ≠ .debug

partial def readAll (stream : IO.FS.Stream) (text : String) : IO String := do
  let line ← stream.getLine
  if line.isEmpty then return text
  readAll stream (text ++ line)

def runOnInput (arguments : List Text) (verbose : Bool) : IO UInt32 := do
  let input ← readAll (← IO.getStdin) ""
  match Json.read .any input.toList with
  | .error e =>
    (← IO.getStderr).putStrLn ("Error: " ++ String.ofList e.message)
    return 1
  | .ok tree =>
    let disk := diskOf tree
    let ending := Command.runProgram arguments Host.standard disk
    for entry in shownEntries verbose ending.log do
      (← IO.getStderr).putStrLn (String.ofList entry.render)
    if let some complaint := ending.complaint? then
      (← IO.getStderr).putStrLn (String.ofList complaint)
    (← IO.getStdout).putStrLn (String.ofList (changes disk ending.disk).pretty)
    return UInt32.ofNat ending.code

end ComponentPack.Main

open ComponentPack in
def main (arguments : List String) : IO UInt32 := do
  let arguments := arguments.map String.toList
  match Command.Request.ofArguments arguments with
  | .help =>
    IO.println Main.usage
    return 0
  | .version =>
    IO.println Main.version
    return 0
  | .refused =>
    (← IO.getStderr).putStrLn Main.usage
    return 2
  | .run _ _ verbose => Main.runOnInput arguments verbose
