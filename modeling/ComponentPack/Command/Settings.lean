import ComponentPack.Build.Export
import ComponentPack.Build.Pass
import ComponentPack.Compiler.External
import ComponentPack.Toml.Reader

/-!
Settings of a project. They are read from a file; relative paths in it start at the directory of
the file. Without a file all settings have their usual values.
-/

namespace ComponentPack.Command

open Build Files Render Toml

structure BuildSettings where
  mode : Mode := .debug
  minify : Bool := false
  workDirectory : Text := ".sfcpack"
  program : Text := "node"
  arguments : List Text := []
  /-- The time that the program has, in seconds. -/
  limit : Nat := 120
deriving DecidableEq, Repr

structure Settings where
  base : Path := ⟨[]⟩
  directory : Text := "website/vue"
  build : BuildSettings := {}
  runtime : Runtime := {}
  jsonDirectory : Option Text := none
  scriptDirectory : Option Text := none
deriving DecidableEq, Repr

inductive SettingsError where
  | unreadable (path : Path)
  | malformed (path : Path)
deriving DecidableEq, Repr

def SettingsError.message : SettingsError → Text
  | unreadable path => "Failed to read " ++ path.text
  | malformed path => "Failed to parse " ++ path.text

/-- The fields of a section by their names. A section is a table; it may also be written as the
array of its fields in order. A date has no fields that anyone asks for. -/
def sectionFields? (names : List Text) : Value → Option (Text → Option Value)
  | .table members => some fun name => member? name members
  | .array items => some fun name => (names.idxOf? name).bind fun i => items[i]?
  | .dateTime _ => some fun _ => none
  | _ => none

def section? (members : List (Text × Value)) (name : Text) (names : List Text) :
    Option (Text → Option Value) :=
  match member? name members with
  | none => some fun _ => none
  | some value => sectionFields? names value

/-- A setting; without a value it has its usual one. -/
def setting? {α : Type} (decode : Value → Option α) (usual : α) : Option Value → Option α
  | none => some usual
  | some value => decode value

def text? : Value → Option Text
  | .string text => some text
  | _ => none

def boolean? : Value → Option Bool
  | .boolean value => some value
  | _ => none

def natural? : Value → Option Nat
  | .integer (.ofNat n) => some n
  | _ => none

def texts? : Value → Option (List Text)
  | .array items => items.mapM text?
  | _ => none

def isEmptyContainer : Value → Bool
  | .array [] | .table [] => true
  | _ => false

/-- A mode is its name, or a table with nothing but the name of the mode in it. -/
def mode? : Value → Option Mode
  | .string name => Mode.ofName? name
  | .table [(name, content)] => if isEmptyContainer content then Mode.ofName? name else none
  | _ => none

namespace Settings

def componentFields : List Text := ["dir"].map String.toList

def buildFields : List Text :=
  ["mode", "minify", "work_dir", "node", "node_args", "timeout_secs"].map String.toList

def runtimeFields : List Text :=
  ["register", "namespace", "use_i18n", "i18n_global", "hoisted_prefix"].map String.toList

def localizationFields : List Text := ["json_dir", "js_dir"].map String.toList

def readBuild? (field : Text → Option Value) : Option BuildSettings := do
  let usual : BuildSettings := {}
  return {
    mode := ← setting? mode? usual.mode (field "mode")
    minify := ← setting? boolean? usual.minify (field "minify")
    workDirectory := ← setting? text? usual.workDirectory (field "work_dir")
    program := ← setting? text? usual.program (field "node")
    arguments := ← setting? texts? usual.arguments (field "node_args")
    limit := ← setting? natural? usual.limit (field "timeout_secs") }

def readRuntime? (field : Text → Option Value) : Option Runtime := do
  let usual : Runtime := {}
  return {
    register := ← setting? text? usual.register (field "register")
    api := ← setting? text? usual.api (field "namespace")
    useLocalization := ← setting? text? usual.useLocalization (field "use_i18n")
    localizationStore := ← setting? text? usual.localizationStore (field "i18n_global")
    constantPrefix := ← setting? text? usual.constantPrefix (field "hoisted_prefix") }

def ofMembers? (base : Path) (members : List (Text × Value)) : Option Settings := do
  let usual : Settings := {}
  let components ← section? members "components" componentFields
  let build ← section? members "build" buildFields
  let runtime ← section? members "runtime" runtimeFields
  let localization ← section? members "i18n" localizationFields
  return {
    base := base
    directory := ← setting? text? usual.directory (components "dir")
    build := ← readBuild? build
    runtime := ← readRuntime? runtime
    jsonDirectory := ← setting? (fun value => (text? value).map some) none
      (localization "json_dir")
    scriptDirectory := ← setting? (fun value => (text? value).map some) none
      (localization "js_dir") }

def parse? (base : Path) (text : Text) : Option Settings :=
  (Toml.parse? text).bind (ofMembers? base)

def baseOf (path : Path) : Path := path.parent?.getD ⟨[]⟩

/-- Loads settings. A file that is not there is no error. -/
def load (disk : Disk) (path : Path) : Except SettingsError Settings × Log :=
  let base := baseOf path
  if !disk.doesExist path then
    (.ok { base := base },
      [Log.debug ("No " ++ path.text ++ " found, using defaults")])
  else
    match disk.readText path with
    | .error _ => (.error (.unreadable path), [])
    | .ok text =>
      match parse? base text with
      | none => (.error (.malformed path), [])
      | some settings => (.ok settings, [Log.info ("Loaded config from " ++ path.text)])

def resolve (settings : Settings) (path : Text) : Path := settings.base.join ⟨path⟩

def componentDirectory (settings : Settings) (given : Option Path) : Path :=
  given.getD (settings.resolve settings.directory)

/-- The options of a build; flags that are given win. -/
def buildOptions (settings : Settings) (release minify : Bool) (directory : Option Path) :
    Build.Options where
  directory := settings.componentDirectory directory
  mode := if release then .release else settings.build.mode
  minify := minify || settings.build.minify
  runtime := settings.runtime

def compiler (settings : Settings) : Compiler.External where
  program := settings.build.program
  arguments := settings.build.arguments
  workDirectory := settings.resolve settings.build.workDirectory
  limit := settings.build.limit * 1000

def beside (directory : Path) (name : String) : Path :=
  match directory.parent? with
  | some parent => parent.join (.ofString name)
  | none => .ofString name

/-- The options of an export. Language files go beside the components, if nothing else is set. -/
def exportOptions (settings : Settings) (directory : Option Path) : ExportOptions :=
  let components := settings.componentDirectory directory
  { directory := components
    jsonDirectory := (settings.jsonDirectory.map settings.resolve).getD (beside components "json")
    scriptDirectory :=
      some ((settings.scriptDirectory.map settings.resolve).getD (beside components "js")) }

end Settings

end ComponentPack.Command
