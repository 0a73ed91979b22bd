import ComponentPack.Build.Discovery
import ComponentPack.Compiler.Basic
import ComponentPack.Component.Sections
import ComponentPack.Files.Write
import ComponentPack.Module.Assemble
import ComponentPack.Stylesheet

/-!
A build pass. Every component is read and checked by itself. In release mode all templates are
then compiled at once, and the imports of all render code are known before the first module is
assembled. Last, modules and stylesheets are written beside the components.
-/

namespace ComponentPack.Build

open Component Files ComponentPack.Localization Render

inductive Mode where
  | debug
  | release
deriving DecidableEq, Repr

namespace Mode

/-- The name in settings. -/
def name : Mode → Text
  | debug => "debug"
  | release => "release"

/-- The name in messages. -/
def title : Mode → Text
  | debug => "Debug"
  | release => "Release"

def ofName? (text : Text) : Option Mode := [debug, release].find? fun mode => mode.name = text

def unknown (text : Text) : Text :=
  "unknown variant `" ++ text ++ "`, expected `debug` or `release`"

end Mode

structure Options where
  directory : Path := .ofString "website/vue"
  mode : Mode := .debug
  minify : Bool := false
  runtime : Runtime := {}

structure Checked where
  path : Path
  sections : Sections
  members : Text
  messages : Table

def checkText (path : Path) (content : Text) : Except ComponentError Checked :=
  match Sections.extract content with
  | .error e => .error (.sections e)
  | .ok sections =>
    match sections.members with
    | .error e => .error (.sections e)
    | .ok members =>
      match Table.parse sections.localization with
      | .error e => .error (.localization e)
      | .ok messages => .ok ⟨path, sections, members, messages⟩

def check (disk : Disk) (path : Path) : Except ComponentFailure Checked :=
  match disk.readText path with
  | .error e => .error ⟨path, .read e⟩
  | .ok content =>
    match checkText path content with
    | .error e => .error ⟨path, e⟩
    | .ok checked => .ok checked

/-- A component with its render code, unless its template is embedded. -/
structure Staged where
  component : Checked
  artifact : Option Artifact

def batchOf (components : List Checked) : Compiler.Batch where
  components := components.map fun component =>
    ⟨component.path, Source.stableId component.path, component.sections.template⟩

def stage (component : Checked) (artifact : Compiler.Artifact) :
    Except ComponentFailure Staged :=
  match artifact with
  | .error reason => .error ⟨component.path, .compile reason⟩
  | .ok code =>
    match Artifact.parse code with
    | .error e => .error ⟨component.path, .artifact e⟩
    | .ok artifact => .ok ⟨component, some artifact⟩

/-- Matches compiled code to components, until one has no answer. -/
def stageAll (compiled : Compiler.Compiled) :
    List Checked → List (Except ComponentFailure Staged) × Option Compiler.CompilerError
  | [] => ([], none)
  | component :: components =>
    match compiled.get? component.path with
    | none => ([], some (.missingArtifact component.path.text))
    | some artifact =>
      let (results, error) := stageAll compiled components
      (stage component artifact :: results, error)

inductive Emission where
  | output (path : Path) (content : Text)
  | remark (message : Text)
deriving DecidableEq, Repr

def moduleOf (runtime : Runtime) (imports : ImportSet) (staged : Staged) : Text :=
  let component := staged.component
  let attachment : Module.Attachment :=
    match staged.artifact with
    | some artifact => .compiled (runtime.reconcile artifact imports)
    | none => .template component.sections.template
  Module.assemble runtime (Source.nameOf component.path) attachment component.members
    component.messages

/-- What is emitted for a component: its module, its stylesheet, and the minified one. A stylesheet
that cannot be minified is only remarked on. -/
def emissions (options : Options) (imports : ImportSet) (staged : Staged) : List Emission :=
  let path := staged.component.path
  let style := staged.component.sections.style
  let minified :=
    match Stylesheet.minify? style with
    | some text => .output (Source.outputPath path "min.css") text
    | none => .remark (Source.basenameOf path ++ ": CSS parse error")
  .output (Source.outputPath path "js") (moduleOf options.runtime imports staged) ::
    if style.isEmpty then []
    else
      .output (Source.outputPath path "css") style ::
        if options.minify then [minified] else []

/-- Emits one step after the other, until an output cannot be written. -/
def emit (disk : Disk) : List Emission → Except ComponentError (List WriteOutcome) × Disk × Log
  | [] => (.ok [], disk, [])
  | .remark message :: rest =>
    let (result, disk, log) := emit disk rest
    (result, disk, Log.warn message :: log)
  | .output path content :: rest =>
    match disk.writeIfChanged path (Text.toBytes content) with
    | (.error e, disk) => (.error (.write path e), disk, [])
    | (.ok outcome, disk) =>
      let (result, disk, log) := emit disk rest
      (result.map (outcome :: ·), disk, outcome.entry path :: log)

def emitAll (options : Options) (imports : ImportSet) (disk : Disk) :
    List Staged → List (Except ComponentFailure (List WriteOutcome)) × Disk × Log
  | [] => ([], disk, [])
  | staged :: rest =>
    let (result, disk, log) := emit disk (emissions options imports staged)
    let result := result.mapError fun e => ComponentFailure.mk staged.component.path e
    let (results, disk, logs) := emitAll options imports disk rest
    (result :: results, disk, log ++ logs)

structure Report where
  components : Nat
  written : Nat
  unchanged : Nat
  failures : List ComponentFailure

def Report.isSuccess (report : Report) : Bool := report.failures.isEmpty

structure Outcome where
  result : Except BuildError Report
  batches : List Compiler.Batch := []
  disk : Disk
  log : Log := []

/-- Emits staged components and sums up. -/
def finish (options : Options) (count : Nat) (failures : List ComponentFailure)
    (staged : List Staged) (disk : Disk) : Report × Disk × Log :=
  let imports := ImportSet.ofArtifacts (staged.filterMap Staged.artifact)
  let (results, disk, log) := emitAll options imports disk staged
  let (outcomes, failed) := split results
  let outcomes := outcomes.flatten
  let report : Report := {
    components := count
    written := outcomes.count .written
    unchanged := outcomes.count .unchanged
    failures := ComponentFailure.sort (failures ++ failed) }
  let importLog :=
    match options.mode with
    | .debug => []
    | .release =>
      [Log.debug ("Runtime imports across the pass: " ++ Text.ofNat imports.size)]
  (report, disk, importLog ++ log ++ ComponentFailure.warnings failed)

/-- Compiles the templates of checked components at once, and goes on with the result. -/
def buildCompiled (options : Options) (compiler : Compiler) (count : Nat)
    (failures : List ComponentFailure) (components : List Checked) (disk : Disk) : Outcome :=
  let batch := batchOf components
  let reply := compiler.compile batch disk
  match reply.result with
  | .error e =>
    { result := .error (.compiler e), batches := [batch], disk := reply.disk, log := reply.log }
  | .ok compiled =>
    let log := reply.log ++ [Log.info ("Compiled " ++ Text.ofNat compiled.size ++
      " templates with " ++ compiler.name)]
    let (results, error) := stageAll compiled components
    let (staged, failed) := split results
    let log := log ++ ComponentFailure.warnings failed
    match error with
    | some e =>
      { result := .error (.compiler e), batches := [batch], disk := reply.disk, log := log }
    | none =>
      let (report, disk, emitted) :=
        finish options count (failures ++ failed) staged reply.disk
      { result := .ok report, batches := [batch], disk := disk, log := log ++ emitted }

def build (options : Options) (compiler : Compiler) (disk : Disk) : Outcome :=
  match discover disk options.directory with
  | (.error e, log) => { result := .error e, disk := disk, log := log }
  | (.ok paths, log) =>
    let (checked, failures) := split (paths.map (check disk))
    let log := log ++ Log.info ("Building " ++ Text.ofNat paths.length ++
      " components from " ++ options.directory.text ++ " (" ++
      options.mode.title ++ " mode)") :: ComponentFailure.warnings failures
    let outcome : Outcome :=
      match options.mode with
      | .debug =>
        let (report, disk, emitted) :=
          finish options paths.length failures (checked.map fun c => ⟨c, none⟩) disk
        { result := .ok report, disk := disk, log := emitted }
      | .release => buildCompiled options compiler paths.length failures checked disk
    { outcome with log := log ++ outcome.log }

end ComponentPack.Build
