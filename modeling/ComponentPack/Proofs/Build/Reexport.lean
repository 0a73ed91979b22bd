import ComponentPack.Proofs.Build.Languages
import Mathlib

/-!
Exporting languages twice. The first export leaves the files of the merged table and new
directories; the second finds the same components and the files as they should be. It can only
fail if the first has made a directory among the components whose path is too long to be opened.
-/

set_option autoImplicit false

namespace ComponentPack.Build

open Component Files Disk ComponentPack.Path ComponentPack.Localization List

variable {paths : List Path} {outcomes : List WriteOutcome} {after : Disk} {log : Log}

theorem mem_text_joinAll {base : Path} {names : List Text} (valid : ∀ name ∈ names, IsName name)
    {c : Char} (other : c ≠ '/') (member : c ∈ (base.joinAll names).text) :
    c ∈ base.text ∨ ∃ name ∈ names, c ∈ name := by
  induction names generalizing base with
  | nil => exact .inl member
  | cons name names ih =>
    rw [forall_mem_cons] at valid
    rcases ih valid.2 member with inside | ⟨later, listed, inside⟩
    · rcases (mem_text_join base valid.1 other).mp inside with inside | inside
      · exact .inl inside
      · exact .inr ⟨name, mem_cons_self, inside⟩
    · exact .inr ⟨later, mem_cons_of_mem name listed, inside⟩

/-- Below a path that is accepted, a path can only be refused for its length. -/
theorem refusal?_joinAll {base : Path} (accepted : refusal? base = none) {names : List Text}
    (valid : ∀ name ∈ names, IsFileName name) :
    refusal? (base.joinAll names) =
      if (base.joinAll names).text.byteSize < maxPath then none else some .nameTooLong := by
  obtain ⟨nul, filled, -⟩ := refusal?_eq_none_iff.mp accepted
  have named : ∀ name ∈ names, IsName name := fun name member => (valid name member).toIsName
  have nul' : ∀ c ∈ (base.joinAll names).text, c.toNat ≠ 0 := by
    intro c member
    by_cases slash : c = '/'
    · rw [slash]
      decide
    · rcases mem_text_joinAll named slash member with inside | ⟨name, listed, inside⟩
      · exact nul c inside
      · exact (valid name listed).nul c inside
  have filled' : (base.joinAll names).text ≠ [] := by
    obtain ⟨rest, whole⟩ := prefix_joinAll base named
    simp [← whole, filled]
  split
  · next short => exact refusal?_eq_none_iff.mpr ⟨nul', filled', short⟩
  · next long =>
    have none : ((base.joinAll names).text.any fun c => c.toNat = 0) = false := by
      simpa using nul'
    rw [refusal?, none, if_neg (by simp), if_neg (by simpa using filled'), if_pos (by omega)]

/-- The path of each directory at or below a path is short enough to be opened. -/
def Openable (disk : Disk) (directory : Path) : Prop :=
  ∀ names, disk.node? (disk.placeOf directory ++ names) = some .directory →
    (directory.joinAll names).text.byteSize < maxPath

theorem Discovered.openable {disk : Disk} {directory : Path}
    (found : Discovered disk directory paths) : Openable disk directory :=
  fun names there => (refusal?_eq_none_iff.mp (found.accepted names there)).2.2

theorem Discovered.refusal? {disk : Disk} {directory : Path}
    (found : Discovered disk directory paths) : refusal? directory = none :=
  found.accepted [] (by rw [append_nil]; exact found.opens.placeOf_directory)

section Grown

variable {disk after : Disk} {area : Set Location} {directory : Path} {paths : List Path}

/-- New directories and changes to other files leave the components as they are. -/
theorem Discovered.grown (found : Discovered disk directory paths) (tree : disk.IsTree)
    (grows : Grows area disk after) (apart : ∀ l ∈ area, ¬ IsSource l)
    (openable : Openable after directory) : Discovered after directory paths where
  opens := grows.opensPath found.opens
  accepted names there := by
    have valid : ∀ name ∈ names, IsFileName name := fun name member =>
      (grows.tree tree).isFileName_of_mem (by rw [there]; simp) member
    rw [refusal?_joinAll found.refusal? valid, if_pos (openable names there)]
  mem_iff path := by
    rw [found.mem_iff, and_congr_right_iff]
    intro component
    refine exists_congr fun names => exists_congr fun content => and_congr_right fun same => ?_
    rw [same] at component
    -- A file with the name of a component lies outside of the area, whichever disk it is on.
    constructor
    · intro there
      have source := isSource_of_isComponent found.opens tree component there
      rw [grows.placeOf_eq]
      exact (grows.file_iff fun inside => apart _ inside source).mpr there
    · intro there
      have source := isSource_of_isComponent (grows.opensPath found.opens) (grows.tree tree)
        component there
      rw [grows.placeOf_eq] at there source
      exact (grows.file_iff fun inside => apart _ inside source).mp there
  nodup := found.nodup
  ascending := found.ascending

theorem Discovered.readLocalization_eq (found : Discovered disk directory paths)
    (tree : disk.IsTree) (free : disk.LinkFree) (grows : Grows area disk after)
    (apart : ∀ l ∈ area, ¬ IsSource l) {path : Path} (listed : path ∈ paths) :
    readLocalization after path = readLocalization disk path := by
  have placed := found.placed tree listed
  obtain ⟨content, there⟩ := found.exists_file tree listed
  have out : disk.placeOf path ∉ area := fun inside => apart _ inside placed.isSource
  obtain ⟨base, name, named, -, opens, rfl⟩ := placed
  rw [placeOf_join disk base named] at there out
  rw [readLocalization, readLocalization, readText, readText,
    grows.read_eq free named opens out there]

/-- A search where one went well before can only fail at a new directory with a long path. -/
theorem discoverBy_of_not_openable (found : Discovered disk directory paths) (tree : disk.IsTree)
    (free : disk.LinkFree) (grows : Grows area disk after) {list : Location → List Text}
    (lists : after.Lists list) (closed : ¬ Openable after directory) :
    ∃ names, disk.node? (disk.placeOf directory ++ names) ≠ some .directory ∧
      after.node? (disk.placeOf directory ++ names) = some .directory ∧
      (discoverBy after list directory).1 =
        .error (.unreadable (.unreadable (directory.joinAll names) .nameTooLong)) := by
  have tree' := grows.tree tree
  have free' := grows.free free
  have opens := grows.opensPath found.opens
  have walked := (walkBelow?_eq_some_iff tree' free' lists).mpr ⟨found.refusal?, opens, rfl⟩
  cases met : Visit.fault? (after.below list after.maxDepth directory (after.placeOf directory)) with
  | none =>
    exact absurd (discovered_of_fault?_eq_none tree' lists found.refusal? opens met).openable closed
  | some fault =>
    obtain ⟨names, -, -, ⟨-, -, other⟩ | ⟨e, there, refused, same⟩⟩ :=
      exists_of_mem_below tree' lists (Visit.mem_of_fault?_eq_some met)
    · simp at other
    · have valid : ∀ name ∈ names, IsFileName name := fun name member =>
        tree'.isFileName_of_mem (by rw [there]; simp) member
      rw [refusal?_joinAll found.refusal? valid] at refused
      split at refused
      · simp at refused
      · next long =>
        rw [grows.placeOf_eq] at there
        refine ⟨names, fun old => long (found.openable names old), there, ?_⟩
        rw [discoverBy, walked]
        simp only [met]
        rw [Visit.fault.inj same, ← Option.some.inj refused]

end Grown

/-- What an export leaves, with the components that it has found and their merged table. -/
structure Exported (options : ExportOptions) (disk : Disk) (report : ExportReport) (after : Disk)
    (paths : List Path) (table : Table) : Prop where
  found : Discovered disk options.directory paths
  /-- A message has the value of the last component that could be read and has it. -/
  message : ∀ code key, table.get? code key = paths.reverse.findSome? fun path =>
    (localization? disk path).bind fun t => t.get? code key
  /-- A locale is there if a component that could be read has it, even without messages. -/
  locale : ∀ code, code ∈ table.codes ↔
    ∃ path ∈ paths, ∃ t, localization? disk path = some t ∧ code ∈ t.codes
  whole : after.read (options.jsonDirectory.join (.ofString "languages.json")) =
    .ok (Text.toBytes (table.pretty ++ ['\n']))
  script : ∀ directory, options.scriptDirectory = some directory →
    after.read (directory.join (.ofString "languages.js")) =
      .ok (Text.toBytes ("const GLOBAL_Language = " ++ (table.pretty ++ ['\n'])))
  single : ∀ code ∈ table.codes,
    after.read (options.jsonDirectory.join ⟨"language_" ++ code ++ ".json"⟩) =
      .ok (Text.toBytes ((table.project code).pretty ++ ['\n']))
  locales : report.locales = table.codes
  components : report.components = paths.length
  failures : report.failures.map (·.path) =
    paths.filter fun path => (localization? disk path).isNone
  files : report.written + report.unchanged = (languageFiles options table).length
  /-- Apart from the language files and their temporary siblings, there are only new directories. -/
  outside : ∀ l ∉ cellsOf disk (languageFiles options table), after.node? l = disk.node? l ∨
    disk.node? l = none ∧ after.node? l = some .directory

section Export

variable {list : Location → List Text} {options : ExportOptions} {disk : Disk}
  {report : ExportReport}

theorem of_exportLanguagesBy_eq_ok (tree : disk.IsTree) (free : disk.LinkFree)
    (lists : disk.Lists list) (exported : (exportLanguagesBy list options disk).result = .ok report) :
    ∃ paths outcomes log, Discovered disk options.directory paths ∧
      report = exportReport disk paths outcomes ∧
      writeFiles disk (languageFiles options (mergedTable disk paths)) =
        (.ok outcomes, (exportLanguagesBy list options disk).disk, log) := by
  cases searched : (discoverBy disk list options.directory).1 with
  | error e =>
    rw [(exportLanguagesBy_of_not_discovered searched).1] at exported
    simp at exported
  | ok paths =>
    have found := (discoverBy_eq_ok_iff tree free lists).mp searched
    obtain ⟨result_eq, disk_eq⟩ := exportLanguagesBy_of_discovered searched
    rw [result_eq] at exported
    rw [disk_eq]
    obtain ⟨result, after, log, wrote⟩ : ∃ result after log,
      writeFiles disk (languageFiles options (mergedTable disk paths)) = (result, after, log) :=
      ⟨_, _, _, rfl⟩
    rw [wrote] at exported ⊢
    cases result with
    | error e => simp [Except.map] at exported
    | ok outcomes => exact ⟨paths, outcomes, log, found, (Except.ok.inj exported).symm, wrote⟩

/-- The export of components that have been found depends on nothing but their paths. -/
theorem exportLanguagesBy_of_writeFiles (tree : disk.IsTree) (free : disk.LinkFree)
    (lists : disk.Lists list) (found : Discovered disk options.directory paths)
    (wrote : writeFiles disk (languageFiles options (mergedTable disk paths)) =
      (.ok outcomes, after, log)) :
    (exportLanguagesBy list options disk).result = .ok (exportReport disk paths outcomes) ∧
      (exportLanguagesBy list options disk).disk = after := by
  obtain ⟨result_eq, disk_eq⟩ := exportLanguagesBy_of_discovered
    ((discoverBy_eq_ok_iff tree free lists).mpr found)
  rw [result_eq, disk_eq, wrote]
  exact ⟨rfl, rfl⟩

theorem exported_of_writeFiles (free : disk.LinkFree)
    (found : Discovered disk options.directory paths)
    (wrote : writeFiles disk (languageFiles options (mergedTable disk paths)) =
      (.ok outcomes, after, log)) :
    Exported options disk (exportReport disk paths outcomes) after paths
      (mergedTable disk paths) := by
  have valid := areLanguageFiles_mergedTable options disk paths
  obtain ⟨grows, reads, length⟩ := of_writeFiles_eq_ok free valid wrote
  exact {
    found := found
    message := get?_mergedTable disk paths
    locale := fun code => mem_codes_mergedTable
    whole := reads _ mem_cons_self
    script := fun directory wanted => by
      have read := reads (directory.join (.ofString "languages.js"),
        scriptText (mergedTable disk paths)) (by simp [languageFiles, wanted])
      rwa [scriptText_eq] at read
    single := fun code member => reads (options.jsonDirectory.join (localeFile code),
      languageText ((mergedTable disk paths).project code))
      (mem_append_right _ (mem_map_of_mem member))
    locales := rfl
    components := rfl
    failures := map_path_split_readLocalization disk paths
    files := (count_written_add_count_unchanged outcomes).trans length
    outside := grows.outside }

/-- After an export, another one with the components still in reach changes nothing. -/
theorem exportLanguagesBy_again (tree : disk.IsTree) (free : disk.LinkFree)
    (found : Discovered disk options.directory paths)
    (wrote : writeFiles disk (languageFiles options (mergedTable disk paths)) =
      (.ok outcomes, after, log)) (lists : after.Lists list)
    (openable : Openable after options.directory) :
    (exportLanguagesBy list options after).result =
        .ok { exportReport disk paths outcomes with
          written := 0
          unchanged := outcomes.length } ∧
      (exportLanguagesBy list options after).disk = after := by
  have valid := areLanguageFiles_mergedTable options disk paths
  obtain ⟨grows, reads, length⟩ := of_writeFiles_eq_ok free valid wrote
  have apart (l : Location) := @AreLanguageFiles.not_isSource _ valid disk l
  have same : ∀ path ∈ paths, readLocalization after path = readLocalization disk path :=
    fun path listed => found.readLocalization_eq tree free grows apart listed
  have table : mergedTable after paths = mergedTable disk paths := by
    rw [mergedTable, mergedTable]
    congr 1
    refine filterMap_congr fun path listed => ?_
    rw [localization?, localization?, same path listed]
  obtain ⟨log', rewrote⟩ := writeFiles_of_read reads
  rw [← table] at rewrote
  obtain ⟨result_eq, disk_eq⟩ := exportLanguagesBy_of_writeFiles (grows.tree tree)
    (grows.free free) lists (found.grown tree grows apart openable) rewrote
  refine ⟨?_, disk_eq⟩
  rw [result_eq, exportReport, exportReport, table, split_congr same, length]
  simp [count_replicate]

/-- An export is exact and does not depend on the order in which directories are listed: it leaves
the language files of the merged table and nothing else. A second one reports that all files are
unchanged, or it fails because the first one has made a directory that it cannot open. -/
theorem exportLanguages_exact {after : Disk} (tree : disk.IsTree) (free : disk.LinkFree)
    (lists : disk.Lists list)
    (exported : (exportLanguagesBy list options disk).result = .ok report)
    (left : (exportLanguagesBy list options disk).disk = after) :
    (∃ paths table, Exported options disk report after paths table ∧
      (∀ code other, (table.project code).messages? other =
        if code = other then table.messages? other else none) ∧
      Table.mergeAll (table.codes.map table.project) = table) ∧
    ((exportLanguages options disk).result = .ok report ∧
      (exportLanguages options disk).disk = after) ∧
    ∀ list', after.Lists list' →
      (Openable after options.directory →
        (exportLanguagesBy list' options after).result =
            .ok { report with written := 0, unchanged := report.written + report.unchanged } ∧
          (exportLanguagesBy list' options after).disk = after) ∧
      (¬ Openable after options.directory →
        ∃ names, disk.node? (disk.placeOf options.directory ++ names) ≠ some .directory ∧
          after.node? (disk.placeOf options.directory ++ names) = some .directory ∧
          (exportLanguagesBy list' options after).result =
            .error (.unreadable (.unreadable (options.directory.joinAll names) .nameTooLong)) ∧
          (exportLanguagesBy list' options after).disk = after) := by
  obtain ⟨paths, outcomes, log, found, rfl, wrote⟩ :=
    of_exportLanguagesBy_eq_ok tree free lists exported
  rw [left] at wrote
  refine ⟨⟨paths, _, exported_of_writeFiles free found wrote, Table.messages?_project _,
    Table.mergeAll_project _⟩, exportLanguagesBy_of_writeFiles tree free (.namesIn disk) found wrote,
    fun list' lists' => ⟨fun openable => ?_, fun closed => ?_⟩⟩
  · rw [show (exportReport disk paths outcomes).written +
      (exportReport disk paths outcomes).unchanged = outcomes.length from
      count_written_add_count_unchanged outcomes]
    exact exportLanguagesBy_again tree free found wrote lists' openable
  · obtain ⟨grows, -, -⟩ :=
      of_writeFiles_eq_ok free (areLanguageFiles_mergedTable options disk paths) wrote
    obtain ⟨names, new, there, missed⟩ :=
      discoverBy_of_not_openable found tree free grows lists' closed
    obtain ⟨result_eq, disk_eq⟩ := exportLanguagesBy_of_not_discovered missed
    exact ⟨names, new, there, result_eq, disk_eq⟩

end Export

/-- Two components, each with a locale of its own. -/
def bilingual : Disk where
  nodes := .ofList [
    (["vue"], .directory),
    (["vue", "a.vue"],
      .file (Text.toBytes "<i18n>\x7b\"en\":\x7b\"k\":1\x7d\x7d</i18n>")),
    (["vue", "b.vue"],
      .file (Text.toBytes "<i18n>\x7b\"de\":\x7b\"k\":2\x7d\x7d</i18n>"))]
  home := []

/-- All language files go to a directory that is not there yet. -/
def bilingualOptions : ExportOptions where
  directory := .ofString "vue"
  jsonDirectory := .ofString "out"
  scriptDirectory := some (.ofString "out")

/-- The components of the bilingual disk. -/
def bilingualPaths : List Path := [.ofString "vue/a.vue", .ofString "vue/b.vue"]

theorem discover_bilingual :
    (discover bilingual bilingualOptions.directory).1 = .ok bilingualPaths := by cbv

theorem codes_bilingual : (mergedTable bilingual bilingualPaths).codes =
    ["de", "en"] := by
  have texts :
      bilingual.readText (.ofString "vue/a.vue") =
          .ok "<i18n>\x7b\"en\":\x7b\"k\":1\x7d\x7d</i18n>" ∧
        bilingual.readText (.ofString "vue/b.vue") =
          .ok "<i18n>\x7b\"de\":\x7b\"k\":2\x7d\x7d</i18n>" := by
    constructor <;> cbv
  rw [mergedTable, bilingualPaths, filterMap_cons, filterMap_cons, localization?,
    localization?, readLocalization, readLocalization, texts.1, texts.2]
  decide +kernel

/-- The files can be written whatever their texts, and the components are still found then. -/
theorem writeFiles_bilingual (a b c d : Text) :
    let wrote := writeFiles bilingual [
      (.ofString "out/languages.json", a), (.ofString "out/languages.js", b),
      (.ofString "out/language_de.json", c), (.ofString "out/language_en.json", d)]
    wrote.1 = .ok [.written, .written, .written, .written] ∧
      (discover wrote.2.1 bilingualOptions.directory).1 = .ok bilingualPaths := by
  constructor <;> cbv

theorem languageFiles_bilingual {table : Table}
    (codes : table.codes = ["de", "en"]) :
    languageFiles bilingualOptions table = [
      (.ofString "out/languages.json", languageText table),
      (.ofString "out/languages.js", scriptText table),
      (.ofString "out/language_de.json", languageText (table.project "de")),
      (.ofString "out/language_en.json", languageText (table.project "en"))] := by
  rw [languageFiles, codes]
  rfl

/-- Two components are exported to four files, which a second export leaves alone. -/
theorem exportLanguages_exact_bilingual :
    bilingual.IsTree ∧ bilingual.LinkFree ∧ ∃ report after,
      (exportLanguages bilingualOptions bilingual).result = .ok report ∧
      (exportLanguages bilingualOptions bilingual).disk = after ∧
      report.locales = ["de".toList, "en".toList] ∧ report.written = 4 ∧ report.unchanged = 0 ∧
      (∃ paths table, Exported bilingualOptions bilingual report after paths table) ∧
      (exportLanguages bilingualOptions after).result =
        .ok { report with written := 0, unchanged := 4 } ∧
      (exportLanguages bilingualOptions after).disk = after := by
  have tree : bilingual.IsTree := by decide +kernel
  have free : bilingual.LinkFree := by decide +kernel
  have found := (discoverBy_eq_ok_iff tree free (.namesIn bilingual)).mp discover_bilingual
  have codes := codes_bilingual
  have wrote := writeFiles_bilingual (languageText (mergedTable bilingual bilingualPaths))
    (scriptText (mergedTable bilingual bilingualPaths))
    (languageText ((mergedTable bilingual bilingualPaths).project "de".toList))
    (languageText ((mergedTable bilingual bilingualPaths).project "en".toList))
  rw [← languageFiles_bilingual codes] at wrote
  obtain ⟨done, again⟩ := wrote
  have whole := Prod.ext (y := (_, _, _)) done rfl
  obtain ⟨grows, -, -⟩ := of_writeFiles_eq_ok free (areLanguageFiles_mergedTable _ _ _) whole
  have openable := ((discoverBy_eq_ok_iff (grows.tree tree) (grows.free free) (.namesIn _)).mp
    again).openable
  obtain ⟨result_eq, disk_eq⟩ := exportLanguagesBy_of_writeFiles tree free (.namesIn bilingual)
    found whole
  obtain ⟨⟨paths, table, exported, -, -⟩, -, second⟩ :=
    exportLanguages_exact tree free (.namesIn bilingual) result_eq disk_eq
  obtain ⟨result_eq', disk_eq'⟩ := (second _ (.namesIn _)).1 openable
  exact ⟨tree, free, _, _, result_eq, disk_eq, codes, rfl, rfl, ⟨paths, table, exported⟩, result_eq',
    disk_eq'⟩

/-- A directory by a path with many detours. -/
def detour (count : Nat) : Path := ⟨(List.replicate count ['.', '/']).flatten ++ "vue"⟩

/-- The name of a directory for language files. -/
def longName : Text := List.replicate 64 'o'

/-- Language files go into a new directory among the components, which are found by a detour. -/
def detourOptions (count : Nat) : ExportOptions where
  directory := detour (count + 1)
  jsonDirectory := (Path.ofString "vue").join ⟨longName⟩
  scriptDirectory := none

/-- A directory for components, without any. -/
def vacant : Disk := ⟨.ofList [(["vue"], .directory)], []⟩

theorem namesOf_detour (count : Nat) :
    namesOf (detour count) = List.replicate count ['.'] ++ ["vue".toList] := by
  induction count with
  | zero => rfl
  | succ count ih =>
    have next : (detour (count + 1)).text = ['.'] ++ '/' :: (detour count).text := rfl
    have front : namesOf ⟨['.']⟩ = [['.']] := by decide
    rw [namesOf, next, Text.splitAll_append, filter_append]
    change namesOf ⟨['.']⟩ ++ namesOf (detour count) = _
    rw [front, ih]
    rfl

theorem byteSize_detour (count : Nat) : (detour count).text.byteSize = 2 * count + 3 := by
  induction count with
  | zero => rfl
  | succ count ih =>
    have next : (detour (count + 1)).text.byteSize = 2 + (detour count).text.byteSize := by
      change Text.byteSize (['.', '/'] ++ (detour count).text) = _
      rw [Text.byteSize_append]
      rfl
    omega

theorem node?_vacant {l : Location} {node : Node} (there : vacant.node? l = some node) :
    (l = [] ∨ l = ["vue"]) ∧ node = .directory := by
  cases l with
  | nil => exact ⟨.inl rfl, (Option.some.inj there).symm⟩
  | cons name names =>
    have entry := Dictionary.get?_eq_some_iff.mp there
    have only : vacant.nodes.entries = [(["vue".toList], .directory)] := rfl
    rw [only, mem_singleton, Prod.mk.injEq] at entry
    exact ⟨.inr entry.1, entry.2⟩

theorem writeFiles_vacant (text : Text) :
    let wrote := writeFiles vacant
      [(((Path.ofString "vue").join ⟨longName⟩).join (.ofString "languages.json"), text)]
    wrote.1 = .ok [.written] ∧
      wrote.2.1.node? ["vue", longName] = some .directory := by
  constructor <;> cbv

theorem opensPath_detour (count : Nat) :
    vacant.OpensPath (detour (count + 1)) ∧ vacant.placeOf (detour (count + 1)) = ["vue"] := by
  have start : vacant.start (detour (count + 1)) = [] := rfl
  have dots : ∀ name ∈ List.replicate (count + 1) ['.'], name = ['.'] := fun name member =>
    eq_of_mem_replicate member
  rw [OpensPath, placeOf, start, namesOf_detour, Opens.append_iff, place_append, place_dots dots]
  exact ⟨⟨.of_dots dots rfl, rfl, .inr (.inr (by decide)), rfl⟩, rfl⟩

theorem nul_detour (count : Nat) : ∀ c ∈ (detour count).text, c.toNat ≠ 0 := by
  induction count with
  | zero =>
    intro c member
    have either : c = 'v' ∨ c = 'u' ∨ c = 'e' := by simpa [detour] using member
    rcases either with rfl | rfl | rfl <;> decide
  | succ count ih =>
    intro c member
    rcases mem_append.mp (show c ∈ ['.', '/'] ++ (detour count).text from member) with
      first | later
    · have either : c = '.' ∨ c = '/' := by simpa using first
      rcases either with rfl | rfl <;> decide
    · exact ih c later

theorem discovered_vacant {count : Nat} (short : 2 * (count + 1) + 3 < maxPath) :
    Discovered vacant (detour (count + 1)) [] := by
  obtain ⟨opens, place⟩ := opensPath_detour count
  refine ⟨opens, fun names there => ?_, fun path => ?_, .nil, .nil⟩
  · have here : names = [] := by
      rw [place] at there
      simpa using (node?_vacant there).1
    rw [here]
    exact refusal?_eq_none_iff.mpr ⟨nul_detour (count + 1), cons_ne_nil _ _,
      (byteSize_detour (count + 1)).trans_lt short⟩
  · simp only [not_mem_nil, false_iff, not_and, not_exists]
    intro _ names content _ there
    have := (node?_vacant there).2
    simp at this

theorem byteSize_detour_join (count : Nat) :
    ((detour count).join ⟨longName⟩).text.byteSize = 2 * count + 68 := by
  have named : IsName longName := ⟨by decide, by decide, by decide, by decide⟩
  have last : (detour count).text.getLast? = some 'e' := by
    rw [detour, List.getLast?_append]
    rfl
  rw [join_of_bare named (by simp [detour]) (by simp [last]), Text.byteSize_append,
    byteSize_detour]
  rfl

/-- An export may leave a directory that keeps the next export from finding the components: the
path of the components is just short enough, and that of the new directory is not. -/
theorem not_exportLanguages_again {count : Nat} (short : 2 * (count + 1) + 3 < maxPath)
    (long : maxPath ≤ 2 * (count + 1) + 68) (tree : vacant.IsTree) (free : vacant.LinkFree) :
    (∃ report, (exportLanguages (detourOptions count) vacant).result = .ok report) ∧
      ¬ ∃ report, (exportLanguages (detourOptions count)
        (exportLanguages (detourOptions count) vacant).disk).result = .ok report := by
  have found : Discovered vacant (detourOptions count).directory [] := discovered_vacant short
  obtain ⟨done, made⟩ := writeFiles_vacant (languageText (mergedTable vacant []))
  have files : languageFiles (detourOptions count) (mergedTable vacant []) =
      [(((Path.ofString "vue").join ⟨longName⟩).join (.ofString "languages.json"),
        languageText (mergedTable vacant []))] := rfl
  rw [← files] at done made
  have whole := Prod.ext (y := (_, _, _)) done rfl
  obtain ⟨result_eq, disk_eq⟩ := exportLanguagesBy_of_writeFiles tree free (.namesIn vacant) found
    whole
  obtain ⟨grows, -, -⟩ := of_writeFiles_eq_ok free (areLanguageFiles_mergedTable _ _ _) whole
  refine ⟨⟨_, result_eq⟩, ?_⟩
  rw [exportLanguages, exportLanguages, disk_eq]
  rintro ⟨report, again⟩
  -- If the second export went well, the new directory could be opened by its path.
  obtain ⟨_, _, _, found', -, -⟩ :=
    of_exportLanguagesBy_eq_ok (grows.tree tree) (grows.free free) (.namesIn _) again
  have place : vacant.placeOf (detourOptions count).directory = ["vue"] :=
    (opensPath_detour count).2
  have opened := found'.openable [longName] (by rw [grows.placeOf_eq, place]; exact made)
  exact absurd (long.trans_eq (byteSize_detour_join (count + 1)).symm) (Nat.not_le.mpr opened)

theorem exportLanguages_again_fails_detour :
    vacant.IsTree ∧ vacant.LinkFree ∧
      (∃ report, (exportLanguages (detourOptions 2015) vacant).result = .ok report) ∧
      ¬ ∃ report, (exportLanguages (detourOptions 2015)
        (exportLanguages (detourOptions 2015) vacant).disk).result = .ok report := by
  have tree : vacant.IsTree := by decide +kernel
  have free : vacant.LinkFree := by decide +kernel
  exact ⟨tree, free, not_exportLanguages_again (by simp [maxPath]) (by simp [maxPath]) tree free⟩

end ComponentPack.Build
