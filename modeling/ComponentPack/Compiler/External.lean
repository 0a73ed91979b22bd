import ComponentPack.Compiler.Basic
import ComponentPack.Host.Basic

/-!
A compiler that runs a program once for a batch. The program gets a driver script, which is put
into the work directory; it reads the batch as JSON and answers with JSON.
-/

namespace ComponentPack.Compiler

open Files

structure External where
  program : Text := "node"
  /-- What comes before the driver script. -/
  arguments : List Text := []
  workDirectory : Path
  /-- The time it has, in milliseconds. -/
  limit : Nat := 120000

namespace External

def driverFile : Path := .ofString "sfc-template-compiler.js"

def driverScript : Text :=
  List.flatMap (fun line => line.toList ++ ['\n']) [
    "const \x7b compileTemplate \x7d = require('@vue/compiler-sfc');",
    "",
    "let input = '';",
    "process.stdin.setEncoding('utf8');",
    "process.stdin.on('data', (chunk) => \x7b",
    "  input += chunk;",
    "\x7d);",
    "process.stdin.on('end', () => \x7b",
    "  const batch = JSON.parse(input);",
    "  const results = batch.components.map((component) => \x7b",
    "    try \x7b",
    "      const result = compileTemplate(\x7b",
    "        filename: component.path,",
    "        id: component.id,",
    "        isProd: batch.production,",
    "        source: component.template,",
    "        compilerOptions: \x7b comments: batch.comments \x7d,",
    "      \x7d);",
    "      if (result.errors && result.errors.length > 0) \x7b",
    "        return \x7b path: component.path, error: result.errors.map(String).join('\\n') \x7d;",
    "      \x7d",
    "      return \x7b path: component.path, code: result.code \x7d;",
    "    \x7d catch (err) \x7b",
    "      return \x7b path: component.path, error: String(err) \x7d;",
    "    \x7d",
    "  \x7d);",
    "  process.stdout.write(JSON.stringify(\x7b results \x7d));",
    "\x7d);"]

def driverPath (external : External) : Path := external.workDirectory.join driverFile

def setupError (path : Path) (fault : Fault) : CompilerError :=
  .setup (path.text ++ ": " ++ fault.message)

def writeDriver (external : External) (disk : Disk) : Except CompilerError Unit × Disk × Log :=
  match disk.createDirectories external.workDirectory with
  | (.error e, disk) => (.error (setupError external.workDirectory e), disk, [])
  | (.ok (), disk) =>
    let path := external.driverPath
    if (disk.readText path).toOption = some driverScript then (.ok (), disk, [])
    else
      match disk.write path (Text.toBytes driverScript) with
      | .error e => (.error (setupError path e), disk, [])
      | .ok disk => (.ok (), disk, [Log.debug ("Wrote compiler driver " ++ path.text)])

def invocation (external : External) (batch : Batch) : Host.Invocation where
  program := external.program
  arguments := external.arguments ++ [external.driverPath.text]
  input := Text.toBytes batch.toJson.compact
  limit := external.limit

def answer (external : External) (batch : Batch) : Host.Run → Except CompilerError Compiled
  | .notStarted reason => .error (.spawn external.program reason)
  | .timedOut => .error (.timeout external.limit)
  | .ended status output errors =>
    if !status.isSuccess then
      .error (.failed status.text (Text.trim (Text.ofBytes errors)))
    else
      match Outcome.parseResponse output with
      | .error e => .error (.invalidResponse e.message)
      | .ok outcomes => Compiled.ofOutcomes batch outcomes

/-- Compiles a batch. An empty batch runs nothing. -/
def compile (external : External) (host : Host) (batch : Batch) (disk : Disk) : Reply :=
  if batch.components.isEmpty then { result := .ok .empty, disk := disk }
  else
    match external.writeDriver disk with
    | (.error e, disk, log) => { result := .error e, disk := disk, log := log }
    | (.ok (), disk, log) =>
      let (run, disk) := host (external.invocation batch) disk
      let entry := Log.info ("Compiling " ++ Text.ofNat batch.components.length ++
        " templates with " ++ external.program ++ " " ++ external.driverPath.text)
      { result := external.answer batch run, disk := disk, log := log ++ [entry] }

def compiler (external : External) (host : Host) : Compiler where
  name := "node"
  compile := external.compile host

end External

end ComponentPack.Compiler
