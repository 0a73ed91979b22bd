import ComponentPack.Proofs.Build.Rebuild
import ComponentPack.Proofs.Localization.Reading
import ComponentPack.Proofs.Module.Messages

/-!
Modules and language files agree. A component that is built is also exported, with the same table.
The module that a debug build writes carries this table, and the language file of an export carries
the tables of all components, merged in the order of their paths. Both are read back as they were,
provided that the numbers in them are whole.
-/

set_option autoImplicit false

namespace ComponentPack

open List

namespace Component

/-- What a build takes for the localization is what an export takes. -/
theorem extractLocalization_of_extract {source : Text} {sections : Sections}
    (extracted : Sections.extract source = .ok sections) :
    extractLocalization source = .ok sections.localization := by
  unfold Sections.extract at extracted
  split at extracted
  · cases extracted
  · next blocks scanned =>
    unfold Sections.ofBlocks at extracted
    split at extracted
    · cases extracted
    · next counts =>
      cases extracted
      have known := List.findSome?_eq_none_iff.mp counts .localization (by decide)
      have counts' : Sections.countError? [.localization] blocks = none :=
        List.findSome?_eq_none_iff.mpr fun kind member => mem_singleton.mp member ▸ known
      rw [extractLocalization, scanned]
      simp only [counts']

end Component

namespace Build

open Component Files Disk ComponentPack.Path ComponentPack.Localization Render

section Tables

variable {disk : Disk} {path : Path}

/-- A component that passes the checks of a build can be exported. -/
theorem localization?_of_check {component : Checked} (checked : check disk path = .ok component) :
    localization? disk path = some component.messages := by
  unfold check at checked
  split at checked
  · cases checked
  · next content found =>
    split at checked
    · cases checked
    · next passed =>
      cases checked
      unfold checkText at passed
      split at passed
      · cases passed
      · next sections extracted =>
        split at passed
        · cases passed
        · split at passed
          · cases passed
          · next parsed =>
            cases passed
            rw [localization?, readLocalization, found]
            simp only [extractLocalization_of_extract extracted, parsed]

theorem readable_of_localization? {table : Table} (known : localization? disk path = some table) :
    table.Readable := by
  unfold localization? at known
  rcases readLocalization_cases disk path with ⟨text, table', parsed, read⟩ | ⟨e, read⟩
  · rw [read] at known
    cases known
    exact Table.readable_of_parse parsed
  · rw [read] at known
    cases known

end Tables

/-- The module beside a component carries a table. -/
def CarriesTable (disk : Disk) (path : Path) (table : Table) : Prop :=
  ∃ text carried, disk.readText (Source.outputPath path "js") = .ok text ∧
    Module.carried? text = some carried ∧ Table.parse carried = .ok table

/-- A language file holds a table. -/
def HoldsTable (disk : Disk) (path : Path) (table : Table) : Prop :=
  ∃ text, disk.readText path = .ok text ∧ Table.parse text = .ok table

/-- The compiler is not asked in debug builds. -/
theorem build_of_debug {options : Options} (mode : options.mode = .debug)
    (compiler other : Compiler) (disk : Disk) :
    build options compiler disk = build options other disk := by
  unfold build
  split
  · rfl
  · simp only [mode]

theorem carried?_moduleOf {options : Options} (runtime : options.runtime = {}) (imports : ImportSet)
    (component : Checked) :
    Module.carried? (moduleOf options.runtime imports ⟨component, none⟩) =
      some (component.messages.toJson.prettyAt 2) := by
  rw [runtime]
  exact Module.carried?_assemble (by decide) (by decide) _ _ _ _

section Pass

variable {options : Options} {disk : Disk} {report : Report}

/-- The module of a component that does not fail is on the disk. -/
theorem carriesTable_of_emitted {after : Disk} {imports : ImportSet} {path : Path}
    {component : Checked} (runtime : options.runtime = {})
    (checked : check disk path = .ok component)
    (written : ∀ output content,
      .output output content ∈ emissions options imports ⟨component, none⟩ →
        after.read output = .ok (Text.toBytes content))
    (whole : component.messages.isWhole = true) : CarriesTable after path component.messages := by
  have readable := readable_of_localization? (localization?_of_check checked)
  have named : component.path = path := by
    have known := @check_path disk path
    rwa [checked] at known
  have module := written _ _ mem_cons_self
  rw [named] at module
  refine ⟨_, _, readText_of_read module, carried?_moduleOf runtime imports component, ?_⟩
  have parsed : Table.parse (component.messages.toJson.prettyAt 2 ++ []) = _ :=
    Table.parse_prettyAt readable whole 2 (by simp)
  rwa [append_nil] at parsed

/-- Without failures, every component that is found passes its checks and is emitted. -/
theorem emitted_of_debug {compiler : Compiler} (tree : disk.IsTree) (free : disk.LinkFree)
    (mode : options.mode = .debug) (finished : (build options compiler disk).result = .ok report)
    (clean : report.failures = []) :
    ∃ paths imports staged, Discovered disk options.directory paths ∧ Apart disk staged ∧
      Emitted options imports disk staged (build options compiler disk).disk ∧
      ∀ path ∈ paths, ∃ component, check disk path = .ok component ∧ ∀ output content,
        .output output content ∈ emissions options imports ⟨component, none⟩ →
          (build options compiler disk).disk.read output = .ok (Text.toBytes content) := by
  have leaves : LeavesFiles (answering fun _ => .error []) := fun _ _ => rfl
  rw [build_of_debug mode compiler (answering fun _ => .error [])] at finished ⊢
  obtain ⟨paths, answer, found, answered⟩ := exists_answered_of_build_ok leaves finished
  obtain ⟨result, apart, emitted⟩ := build_of_answered tree free leaves found answered
  have discovered := (discoverBy_eq_ok_iff tree free (.namesIn disk)).mp found
  refine ⟨paths, _, _, discovered, apart, emitted, fun path listed => ?_⟩
  rw [result, Except.ok.injEq] at finished
  rcases listed_or_emitted free discovered apart emitted listed with
    failed | ⟨-, staged, judged, written⟩
  · rw [finished, clean] at failed
    cases failed
  · rw [judge, mode] at judged
    split at judged
    · cases judged
    · next component checked =>
      cases judged
      exact ⟨component, checked, written⟩

end Pass

theorem filterMap_eq_of_map {α β : Type} {f : α → Option β} {items : List α} {values : List β}
    (each : items.map f = values.map some) : items.filterMap f = values := by
  have found : (items.map f).filterMap id = (values.map some).filterMap id := by rw [each]
  rwa [filterMap_map, filterMap_map, Function.id_comp, Function.id_comp,
    filterMap_some] at found

theorem exists_map_eq_map_some {α β : Type} {f : α → Option β} {items : List α}
    (each : ∀ item ∈ items, ∃ value, f item = some value) :
    ∃ values : List β, items.map f = values.map some := by
  induction items with
  | nil => exact ⟨[], rfl⟩
  | cons item items ih =>
    obtain ⟨first, later⟩ := forall_mem_cons.mp each
    obtain ⟨value, here⟩ := first
    obtain ⟨values, there⟩ := ih later
    exact ⟨value :: values, by rw [map_cons, map_cons, here, there]⟩

/-- The language file of an export holds the merged tables, if all components can be exported. -/
theorem holdsTable_of_export {disk : Disk} {list : Location → List Text} {options : ExportOptions}
    {report : ExportReport} {paths : List Path} {tables : List Table} (tree : disk.IsTree)
    (free : disk.LinkFree) (lists : disk.Lists list)
    (found : Discovered disk options.directory paths)
    (each : paths.map (localization? disk) = tables.map some)
    (whole : ∀ table ∈ tables, table.isWhole = true)
    (exported : (exportLanguagesBy list options disk).result = .ok report) :
    HoldsTable (exportLanguagesBy list options disk).disk
      (options.jsonDirectory.join (.ofString "languages.json")) (.mergeAll tables) := by
  obtain ⟨paths', outcomes, log, found', -, wrote⟩ :=
    of_exportLanguagesBy_eq_ok tree free lists exported
  obtain rfl := found.unique tree found'
  have merged : mergedTable disk paths = .mergeAll tables := by
    rw [mergedTable, filterMap_eq_of_map each]
  have written := (exported_of_writeFiles free found wrote).whole
  rw [merged] at written
  have readable : ∀ table ∈ tables, table.Readable := by
    intro table member
    have known : some table ∈ paths.map (localization? disk) := by
      rw [each]
      exact mem_map_of_mem member
    obtain ⟨path, -, known⟩ := mem_map.mp known
    exact readable_of_localization? known
  exact ⟨_, readText_of_read written, Table.parse_prettyAt (.mergeAll readable)
    (Table.isWhole_mergeAll whole) 0 fun c feed => mem_singleton.mp feed ▸ rfl⟩

/-- On a disk without links, where a debug build fails for no component, each module carries the
table of its component, and the language file of an export before or after the build holds the
merged tables. -/
theorem modules_agree_languages {options : Options} {compiler : Compiler} {disk : Disk}
    {report : Report} (tree : disk.IsTree) (free : disk.LinkFree) (mode : options.mode = .debug)
    (runtime : options.runtime = {})
    (finished : (build options compiler disk).result = .ok report)
    (clean : report.failures = []) :
    let built := (build options compiler disk).disk
    ∃ (paths : List Path) (tables : List Table), (discover disk options.directory).1 = .ok paths ∧
      paths.map (localization? disk) = tables.map some ∧
      (∀ path ∈ paths, ∀ table, localization? disk path = some table →
        table.isWhole = true → CarriesTable built path table) ∧
      ((∀ table ∈ tables, table.isWhole = true) → ∀ exporting : ExportOptions,
        exporting.directory = options.directory → ∀ start ∈ [disk, built], ∀ list,
          start.Lists list → ∀ exported,
            (exportLanguagesBy list exporting start).result = .ok exported →
              HoldsTable (exportLanguagesBy list exporting start).disk
                (exporting.jsonDirectory.join (.ofString "languages.json"))
                (.mergeAll tables)) := by
  intro built
  obtain ⟨paths, imports, staged, found, apart, emitted, each⟩ :=
    emitted_of_debug tree free mode finished clean
  obtain ⟨tables, listed⟩ : ∃ tables : List Table,
      paths.map (localization? disk) = tables.map some :=
    exists_map_eq_map_some fun path member =>
      have ⟨component, checked, _⟩ := each path member
      ⟨component.messages, localization?_of_check checked⟩
  refine ⟨paths, tables, (discoverBy_eq_ok_iff tree free (.namesIn disk)).mpr found, listed, ?_, ?_⟩
  · intro path member table known whole
    obtain ⟨component, checked, written⟩ := each path member
    rw [localization?_of_check checked] at known
    cases known
    exact carriesTable_of_emitted runtime checked written whole
  · intro whole exporting same start among list lists exported done
    rcases List.mem_pair.mp among with rfl | rfl
    · exact holdsTable_of_export tree free lists (same ▸ found) listed whole done
    · have grows := emitted.grows apart free
      have again : paths.map (localization? built) = tables.map some := by
        rw [← listed]
        refine List.map_congr_left fun path member => ?_
        rw [localization?, localization?, found.readLocalization_eq tree free grows
          (fun l => not_isSource_of_mem_areas) member]
      exact holdsTable_of_export (grows.tree tree) (emitted.confined.free free) lists
        (same ▸ emitted.discovered apart tree free found) again whole done

/-- Where the language files of the component go. -/
def loneExport : ExportOptions where
  directory := .ofString "vue"
  jsonDirectory := .ofString "out"
  scriptDirectory := none

theorem writeFiles_lone (content : ByteArray) (a b : Text) :
    (writeFiles (lone content) [(.ofString "out/languages.json", a),
      (.ofString "out/language_en.json", b)]).1 = .ok [.written, .written] := by
  cbv

theorem exportLanguages_lone {content : ByteArray}
    (codes : (mergedTable (lone content) [.ofString "vue/a.vue"]).codes = ["en"]) :
    ∃ report, (exportLanguages loneExport (lone content)).result = .ok report := by
  have files : languageFiles loneExport (mergedTable (lone content) [.ofString "vue/a.vue"]) = [
      (.ofString "out/languages.json",
        languageText (mergedTable (lone content) [.ofString "vue/a.vue"])),
      (.ofString "out/language_en.json",
        languageText ((mergedTable (lone content) [.ofString "vue/a.vue"]).project
          "en"))] := by
    rw [languageFiles, codes]
    rfl
  obtain ⟨result, -⟩ :=
    @exportLanguagesBy_of_discovered _ loneExport _ _ (discover_lone content)
  rw [files, writeFiles_lone] at result
  exact ⟨_, result⟩

/-- The text of a message may look like the end of the messages. -/
theorem modules_agree_languages_lone :
    let disk := lone (Text.toBytes (loneText
      "\x7b\"en\":\x7b\"k\":[-1,\";\\n    Object.keys\"]\x7d\x7d".toList))
    let compiler := answering fun _ => .error []
    let built := (build loneOptions compiler disk).disk
    disk.IsTree ∧ disk.LinkFree ∧
      (build loneOptions compiler disk).result = .ok ⟨1, 1, 0, []⟩ ∧
      ∃ table, localization? disk (.ofString "vue/a.vue") = some table ∧ table.isWhole = true ∧
        CarriesTable built (.ofString "vue/a.vue") table ∧
        ∃ report, (exportLanguages loneExport disk).result = .ok report ∧
          HoldsTable (exportLanguages loneExport disk).disk (.ofString "out/languages.json")
            (.mergeAll [table]) := by
  intro disk compiler built
  have tree : disk.IsTree := by decide +kernel
  have free : disk.LinkFree := by decide +kernel
  have result : (build loneOptions compiler disk).result = .ok ⟨1, 1, 0, []⟩ :=
    build_lone (by decide +kernel) tree free
  have view := localization?_of_readText (readText_lone (loneText
    "\x7b\"en\":\x7b\"k\":[-1,\";\\n    Object.keys\"]\x7d\x7d".toList))
  have numbers : (localization? disk (.ofString "vue/a.vue")).map Table.isWhole = some true := by
    rw [view]
    decide +kernel
  have codes : (mergedTable disk [.ofString "vue/a.vue"]).codes = ["en".toList] := by
    rw [mergedTable, List.filterMap_cons, view]
    decide +kernel
  obtain ⟨table, known, whole⟩ := Option.map_eq_some_iff.mp numbers
  obtain ⟨paths, tables, found, listed, modules, languages⟩ :=
    modules_agree_languages tree free rfl rfl result rfl
  rw [discover_lone] at found
  cases found
  have single : tables = [table] := by
    have tables' := filterMap_eq_of_map listed
    rw [List.filterMap_cons, known] at tables'
    exact tables'.symm
  subst single
  obtain ⟨report, exported⟩ := exportLanguages_lone codes
  have held := languages (by simpa using whole) loneExport rfl disk (by simp) _ (.namesIn disk)
    report exported
  exact ⟨tree, free, result, table, known, whole, modules _ (by simp) table known whole, report,
    exported, held⟩

end Build

end ComponentPack
