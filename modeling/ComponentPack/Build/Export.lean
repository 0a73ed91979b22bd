import ComponentPack.Build.Discovery
import ComponentPack.Component.Sections
import ComponentPack.Files.Write
import ComponentPack.Localization.Collector

/-!
Exporting the localization of all components: one file with everything, the same as a script, and
one file for each locale.
-/

namespace ComponentPack.Build

open Component Files ComponentPack.Localization

structure ExportOptions where
  directory : Path
  jsonDirectory : Path
  scriptDirectory : Option Path

structure ExportReport where
  components : Nat
  locales : List Text
  written : Nat
  unchanged : Nat
  failures : List ComponentFailure

structure ExportOutcome where
  result : Except BuildError ExportReport
  disk : Disk
  log : Log := []

def readLocalization (disk : Disk) (path : Path) : Except ComponentFailure (Text × Table) :=
  match disk.readText path with
  | .error e => .error ⟨path, .read e⟩
  | .ok content =>
    match extractLocalization content with
    | .error e => .error ⟨path, .sections e⟩
    | .ok text =>
      match Table.parse text with
      | .error e => .error ⟨path, .localization e⟩
      | .ok table => .ok (Source.basenameOf path, table)

def collect (collector : Collector) : List (Text × Table) → Collector × Log
  | [] => (collector, [])
  | (component, table) :: rest =>
    let (collector, added) := collector.add component table
    let (collector, log) := collect collector rest
    (collector, Log.debug ("Merging localization of " ++ component) :: added ++ log)

def languageText (table : Table) : Text := table.pretty ++ ['\n']

def scriptText (table : Table) : Text :=
  "const GLOBAL_Language = " ++ Text.trimEnd (languageText table) ++ ['\n']

def localeFile (code : Text) : Path := ⟨"language_" ++ code ++ ".json"⟩

def languageFiles (options : ExportOptions) (table : Table) : List (Path × Text) :=
  (options.jsonDirectory.join (.ofString "languages.json"), languageText table) ::
    (options.scriptDirectory.toList.map fun directory =>
      (directory.join (.ofString "languages.js"), scriptText table)) ++
    table.codes.map fun code =>
      (options.jsonDirectory.join (localeFile code), languageText (table.project code))

/-- Writes files one after the other, until one cannot be written. -/
def writeFiles (disk : Disk) :
    List (Path × Text) → Except BuildError (List WriteOutcome) × Disk × Log
  | [] => (.ok [], disk, [])
  | (path, text) :: files =>
    match disk.writeIfChanged path (Text.toBytes text) with
    | (.error e, disk) => (.error (.write path e), disk, [])
    | (.ok outcome, disk) =>
      let (result, disk, log) := writeFiles disk files
      (result.map (outcome :: ·), disk, outcome.entry path :: log)

/-- Writes the language files of all components below a directory, where `list` gives the names in
a directory. -/
def exportLanguagesBy (list : Location → List Text) (options : ExportOptions) (disk : Disk) :
    ExportOutcome :=
  match discoverBy disk list options.directory with
  | (.error e, log) => { result := .error e, disk := disk, log := log }
  | (.ok paths, log) =>
    let (tables, failures) := split (paths.map (readLocalization disk))
    let (collector, merging) := collect .empty tables
    let (result, disk, writing) := writeFiles disk (languageFiles options collector.table)
    let log := log ++ Log.info ("Collecting localization from " ++
        Text.ofNat paths.length ++ " components in " ++ options.directory.text) ::
      ComponentFailure.warnings failures ++ merging ++ writing
    let report (outcomes : List WriteOutcome) : ExportReport :=
      { components := paths.length
        locales := collector.codes
        written := outcomes.count .written
        unchanged := outcomes.count .unchanged
        failures := failures }
    { result := result.map report, disk := disk, log := log }

def exportLanguages (options : ExportOptions) (disk : Disk) : ExportOutcome :=
  exportLanguagesBy disk.namesIn options disk

end ComponentPack.Build
