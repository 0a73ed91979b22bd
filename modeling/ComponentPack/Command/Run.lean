import ComponentPack.Command.Example
import ComponentPack.Command.Settings

/-!
The commands: starting a project, building its components, and exporting its languages.
-/

namespace ComponentPack

namespace Command

open Build Files

inductive CommandError where
  | settings (error : SettingsError)
  | settingsNotWritten (path : Path)
  | directoryNotCreated
  | exampleNotWritten
  | build (error : BuildError)
  | componentsFailed (failed total : Nat)
  | localizationFailed (failed total : Nat)
deriving DecidableEq, Repr

def CommandError.message : CommandError → Text
  | settings e => e.message
  | settingsNotWritten path => "Failed to write " ++ path.text
  | directoryNotCreated => "Failed to create components directory"
  | exampleNotWritten => "Failed to write HelloWorld.vue"
  | build e => e.message
  | componentsFailed failed total =>
    Text.ofNat failed ++ " of " ++ Text.ofNat total ++
      " components failed to build"
  | localizationFailed failed total =>
    Text.ofNat failed ++ " of " ++ Text.ofNat total ++
      " components have unreadable localization"

structure Outcome where
  result : Except CommandError Unit
  disk : Disk
  log : Log := []

/-- Puts a file into place, unless there is one that is to be kept. -/
def putFile (disk : Disk) (overwrite : Bool) (path : Path) (text : Text) :
    Except Fault Bool × Disk :=
  if !disk.doesExist path || overwrite then
    match disk.write path (Text.toBytes text) with
    | .ok disk => (.ok true, disk)
    | .error e => (.error e, disk)
  else (.ok false, disk)

def created (path : Path) : Log.Entry := Log.info ("Created " ++ path.text)

/-- Creates a directory unless something stands there. -/
def ensureDirectory (disk : Disk) (path : Path) : Except Fault Unit × Disk :=
  if disk.doesExist path then (.ok (), disk) else disk.createDirectories path

def putExample (overwrite : Bool) (directory : Path) (disk : Disk) : Outcome :=
  match ensureDirectory disk directory with
  | (.error _, disk) => { result := .error .directoryNotCreated, disk := disk }
  | (.ok (), disk) =>
    let path := directory.join exampleFile
    match putFile disk overwrite path exampleComponent with
    | (.error _, disk) => { result := .error .exampleNotWritten, disk := disk }
    | (.ok wrote, disk) =>
      { result := .ok (), disk := disk, log := if wrote then [created path] else [] }

/-- Writes the settings file and the example component. Files that are there are kept, unless they
are to be overwritten. -/
def initProject (overwrite : Bool) (config : Path) (disk : Disk) : Outcome :=
  match putFile disk overwrite config exampleSettings with
  | (.error _, disk) => { result := .error (.settingsNotWritten config), disk := disk }
  | (.ok wrote, disk) =>
    let entry :=
      if wrote then created config
      else Log.warn (config.text ++ " already exists. Use --yes to overwrite.")
    match Settings.load disk config with
    | (.error e, log) => { result := .error (.settings e), disk := disk, log := entry :: log }
    | (.ok settings, log) =>
      let outcome := putExample overwrite (settings.componentDirectory none) disk
      { outcome with log := entry :: log ++ outcome.log }

def runInit (overwrite : Bool) (config : Path) (disk : Disk) : Outcome :=
  let outcome := initProject overwrite config disk
  let farewell :=
    match outcome.result with
    | .error _ => []
    | .ok () =>
      [Log.info "Initialization complete!",
        Log.info "Run 'sfcpack build' to compile your components."]
  { outcome with
    log := Log.info "Initializing sfcpack..." :: outcome.log ++ farewell }

def errors (failures : List ComponentFailure) : Log :=
  failures.map fun failure => Log.error failure.message

/-- The summary of a build. Time is not measured. -/
def buildSummary (report : Report) : Log.Entry :=
  Log.info ("Built " ++ Text.ofNat report.components ++ " components in 0ms (" ++
    Text.ofNat report.written ++ " written, " ++ Text.ofNat report.unchanged ++
    " unchanged)")

def runBuild (release minify : Bool) (directory : Option Path) (host : Host) (config : Path)
    (disk : Disk) : Outcome :=
  let greeting := Log.info "Building components..."
  match Settings.load disk config with
  | (.error e, log) => { result := .error (.settings e), disk := disk, log := greeting :: log }
  | (.ok settings, log) =>
    let outcome := build (settings.buildOptions release minify directory)
      (settings.compiler.compiler host) disk
    let log := greeting :: log ++ outcome.log
    match outcome.result with
    | .error e => { result := .error (.build e), disk := outcome.disk, log := log }
    | .ok report =>
      { result :=
          if report.isSuccess then .ok ()
          else .error (.componentsFailed report.failures.length report.components)
        disk := outcome.disk
        log := log ++ buildSummary report :: errors report.failures }

def exportSummary (options : ExportOptions) (report : ExportReport) : Log :=
  [Log.info ("Exported " ++ Text.ofNat report.locales.length ++ " locales (" ++
      List.intercalate ", " report.locales ++ ") from " ++
      Text.ofNat report.components ++ " components in 0ms"),
    Log.info ("Output: " ++ options.jsonDirectory.text)]

def runExport (directory : Option Path) (config : Path) (disk : Disk) : Outcome :=
  let greeting := Log.info "Exporting languages..."
  match Settings.load disk config with
  | (.error e, log) => { result := .error (.settings e), disk := disk, log := greeting :: log }
  | (.ok settings, log) =>
    let options := settings.exportOptions directory
    let outcome := exportLanguages options disk
    let log := greeting :: log ++ outcome.log
    match outcome.result with
    | .error e => { result := .error (.build e), disk := outcome.disk, log := log }
    | .ok report =>
      { result :=
          if report.failures.isEmpty then .ok ()
          else .error (.localizationFailed report.failures.length report.components)
        disk := outcome.disk
        log := log ++ exportSummary options report ++ errors report.failures }

end Command

inductive Command where
  | init (overwrite : Bool)
  | build (release minify : Bool) (directory : Option Path)
  | languages (directory : Option Path)
deriving DecidableEq, Repr

namespace Command

def standardConfig : Path := .ofString "sfcpack.toml"

def run (command : Command) (host : Host) (config : Path) (disk : Files.Disk) : Outcome :=
  match command with
  | init overwrite => runInit overwrite config disk
  | build release minify directory => runBuild release minify directory host config disk
  | languages directory => runExport directory config disk

end Command

end ComponentPack
