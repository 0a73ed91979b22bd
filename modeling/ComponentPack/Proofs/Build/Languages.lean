import ComponentPack.Build.Export
import ComponentPack.Proofs.Build.Verdict
import ComponentPack.Proofs.Files.Growing
import ComponentPack.Proofs.Localization.Merge

/-!
The files that an export of languages writes. They hold the messages of all components that could
be read, the last component winning. Their names are different from one another and from those of
components, so that after all have been written each of them holds its text.
-/

set_option autoImplicit false

namespace ComponentPack.Build

open Component Files Disk ComponentPack.Path ComponentPack.Localization List

variable {disk : Disk} {code : Text} {files : List (Path × Text)}

/-- The table of a component, unless it cannot be read. -/
def localization? (disk : Disk) (path : Path) : Option Table :=
  match readLocalization disk path with
  | .ok (_, table) => some table
  | .error _ => none

/-- The table of all components. -/
def mergedTable (disk : Disk) (paths : List Path) : Table :=
  .mergeAll (paths.filterMap (localization? disk))

theorem get?_mergedTable (disk : Disk) (paths : List Path) (code key : Text) :
    (mergedTable disk paths).get? code key =
      paths.reverse.findSome? fun path =>
        (localization? disk path).bind fun table => table.get? code key := by
  rw [mergedTable, Table.get?_mergeAll, ← filterMap_reverse, ← List.head?_filterMap,
    filterMap_filterMap, List.head?_filterMap]

theorem mem_codes_mergedTable {paths : List Path} :
    code ∈ (mergedTable disk paths).codes ↔
      ∃ path ∈ paths, ∃ table, localization? disk path = some table ∧ code ∈ table.codes := by
  rw [mergedTable, Table.mem_codes_mergeAll]
  simp only [mem_filterMap]
  constructor
  · rintro ⟨table, ⟨path, listed, read⟩, member⟩
    exact ⟨path, listed, table, read, member⟩
  · rintro ⟨path, listed, table, read, member⟩
    exact ⟨table, ⟨path, listed, read⟩, member⟩

/-- The table of a component whose text is known. -/
theorem localization?_of_readText {path : Path} {text : Text} (read : disk.readText path = .ok text)
    :
    localization? disk path =
      (extractLocalization text).toOption.bind fun inner => (Table.parse inner).toOption := by
  rw [localization?, readLocalization, read]
  cases extracted : extractLocalization text with
  | error e => simp [Except.toOption, extracted]
  | ok inner => cases done : Table.parse inner <;> simp [Except.toOption, extracted, done]

/-- A component has a table that has been parsed, or a failure of its own. -/
theorem readLocalization_cases (disk : Disk) (path : Path) :
    (∃ text table, Table.parse text = .ok table ∧
      readLocalization disk path = .ok (Source.basenameOf path, table)) ∨
    ∃ e, readLocalization disk path = .error ⟨path, e⟩ := by
  rw [readLocalization]
  split
  · exact .inr ⟨_, rfl⟩
  · split
    · exact .inr ⟨_, rfl⟩
    · split
      · exact .inr ⟨_, rfl⟩
      · next parsed => exact .inl ⟨_, _, parsed, rfl⟩

theorem isValidCode_of_mem_mergedTable {paths : List Path}
    (member : code ∈ (mergedTable disk paths).codes) : Table.isValidCode code = true := by
  obtain ⟨path, -, table, read, known⟩ := mem_codes_mergedTable.mp member
  rw [localization?] at read
  rcases readLocalization_cases disk path with ⟨text, _, parsed, done⟩ | ⟨e, failed⟩
  · rw [done, Option.some.injEq] at read
    exact Table.isValidCode_of_parse (read ▸ parsed) code known
  · simp [failed] at read

theorem table_collect (collector : Collector) (tables : List (Text × Table)) :
    (collect collector tables).1.table =
      (tables.map Prod.snd).foldl Table.merge collector.table := by
  induction tables generalizing collector with
  | nil => rfl
  | cons entry tables ih =>
    refine (ih (collector.add entry.1 entry.2).1).trans ?_
    rw [Collector.table_add]
    rfl

theorem codes_collect {collector : Collector} (known : collector.codes = collector.table.codes)
    (tables : List (Text × Table)) :
    (collect collector tables).1.codes = (collect collector tables).1.table.codes := by
  induction tables generalizing collector with
  | nil => exact known
  | cons entry tables ih => exact ih (Collector.codes_add known entry.1 entry.2)

theorem map_split_readLocalization (disk : Disk) (paths : List Path) :
    (split (paths.map (readLocalization disk))).1.map Prod.snd =
      paths.filterMap (localization? disk) := by
  induction paths with
  | nil => rfl
  | cons path paths ih =>
    rw [map_cons, filterMap_cons, localization?]
    cases readLocalization disk path with
    | error e => exact ih
    | ok entry => exact congrArg (entry.2 :: ·) ih

/-- The report of an export, by what came of each language file. -/
def exportReport (disk : Disk) (paths : List Path) (outcomes : List WriteOutcome) :
    ExportReport where
  components := paths.length
  locales := (mergedTable disk paths).codes
  written := outcomes.count .written
  unchanged := outcomes.count .unchanged
  failures := (split (paths.map (readLocalization disk))).2

/-- An export that has found the components writes the files of the merged table. -/
theorem exportLanguagesBy_of_discovered {list : Location → List Text} {options : ExportOptions}
    {disk : Disk} {paths : List Path}
    (found : (discoverBy disk list options.directory).1 = .ok paths) :
    (exportLanguagesBy list options disk).result =
        (writeFiles disk (languageFiles options (mergedTable disk paths))).1.map
          (exportReport disk paths) ∧
      (exportLanguagesBy list options disk).disk =
        (writeFiles disk (languageFiles options (mergedTable disk paths))).2.1 := by
  obtain ⟨log, whole⟩ : ∃ log, discoverBy disk list options.directory = (.ok paths, log) :=
    ⟨_, Prod.ext found rfl⟩
  have table := table_collect .empty (split (paths.map (readLocalization disk))).1
  rw [map_split_readLocalization] at table
  have codes := @codes_collect .empty rfl (split (paths.map (readLocalization disk))).1
  change _ = mergedTable disk paths at table
  rw [table] at codes
  rw [exportLanguagesBy, whole]
  simp only [table, codes]
  exact ⟨rfl, trivial⟩

theorem exportLanguagesBy_of_not_discovered {list : Location → List Text} {options : ExportOptions}
    {e : BuildError} (missed : (discoverBy disk list options.directory).1 = .error e) :
    (exportLanguagesBy list options disk).result = .error e ∧
      (exportLanguagesBy list options disk).disk = disk := by
  obtain ⟨log, whole⟩ : ∃ log, discoverBy disk list options.directory = (.error e, log) :=
    ⟨_, Prod.ext missed rfl⟩
  rw [exportLanguagesBy, whole]
  exact ⟨rfl, rfl⟩

/-- The components that could not be read, in the order of their paths. -/
theorem map_path_split_readLocalization (disk : Disk) (paths : List Path) :
    (split (paths.map (readLocalization disk))).2.map (·.path) =
      paths.filter fun path => (localization? disk path).isNone := by
  have named : ∀ path failure, readLocalization disk path = .error failure →
      failure.path = path := by
    intro path failure failed
    rcases readLocalization_cases disk path with ⟨_, _, -, done⟩ | ⟨e, failed'⟩
    · simp [done] at failed
    · rw [← Except.error.inj (failed'.symm.trans failed)]
  rw [map_split_snd named]
  refine filter_congr fun path _ => ?_
  rw [localization?]
  cases readLocalization disk path <;> rfl

theorem count_written_add_count_unchanged (outcomes : List WriteOutcome) :
    outcomes.count .written + outcomes.count .unchanged = outcomes.length := by
  induction outcomes with
  | nil => rfl
  | cons outcome outcomes ih =>
    cases outcome <;> simp [← ih] <;> omega

theorem scriptText_eq (table : Table) :
    scriptText table = "const GLOBAL_Language = " ++ (table.pretty ++ ['\n']) := by
  change "const GLOBAL_Language = " ++ Text.trimEnd (table.pretty ++ ['\n']) ++ ['\n'] = _
  rw [Table.trimEnd_pretty, append_assoc]

/-- The file name of a language file. -/
structure IsLanguageName (name : Text) : Prop where
  isName : IsName name
  first : name.head? = some 'l'
  last : name.getLast? = some 'n' ∨ name.getLast? = some 's'

theorem localeFile_text (code : Text) :
    (localeFile code).text = "language_" ++ code ++ ".json" := rfl

theorem isLanguageName_localeFile (valid : Table.isValidCode code = true) :
    IsLanguageName (localeFile code).text := by
  have slash : '/' ∉ code := by
    intro inside
    have none := (Bool.and_eq_true_iff.mp valid).2
    rw [Bool.not_eq_true', any_eq_false] at none
    exact none '/' inside (by decide)
  have last : (localeFile code).text.getLast? = some 'n' := by
    rw [localeFile_text, List.getLast?_append]
    rfl
  refine ⟨⟨by simp [localeFile_text], by simp [localeFile_text, slash], ?_, ?_⟩,
    by simp [localeFile_text], .inl last⟩
  · intro same
    simp [same] at last
  · intro same
    simp [same] at last

/-- Files with the names of language files, no two with the same name. -/
structure AreLanguageFiles (files : List (Path × Text)) : Prop where
  named : ∀ file ∈ files, ∃ base : Path, ∃ name, IsLanguageName name ∧ file.1 = base.join ⟨name⟩
  distinct : (files.map fun file => file.1.fileName?).Nodup

theorem localeFile_inj {a b : Text} (same : (localeFile a).text = (localeFile b).text) : a = b := by
  simpa [localeFile_text] using same

theorem isLanguageName_whole : IsLanguageName "languages.json" :=
  ⟨⟨by decide, by decide, by decide, by decide⟩, by decide, by decide⟩

theorem isLanguageName_script : IsLanguageName "languages.js" :=
  ⟨⟨by decide, by decide, by decide, by decide⟩, by decide, by decide⟩

theorem map_fileName?_languageFiles (options : ExportOptions) {table : Table}
    (valid : ∀ code ∈ table.codes, Table.isValidCode code = true) :
    (languageFiles options table).map (fun file => file.1.fileName?) =
      some "languages.json".toList ::
        (options.scriptDirectory.toList.map fun _ => some "languages.js") ++
          table.codes.map fun code => some (localeFile code).text := by
  have codes : table.codes.map (fun code =>
        (options.jsonDirectory.join (localeFile code)).fileName?) =
      table.codes.map fun code => some (localeFile code).text :=
    map_congr_left fun code member =>
      fileName?_join _ (isLanguageName_localeFile (valid code member)).isName
  simp only [languageFiles, cons_append, map_cons, map_append, map_map,
    Function.comp_def, codes]
  simp only [Path.ofString, fileName?_join _ isLanguageName_whole.isName,
    fileName?_join _ isLanguageName_script.isName]

theorem areLanguageFiles_languageFiles (options : ExportOptions) {table : Table}
    (valid : ∀ code ∈ table.codes, Table.isValidCode code = true) :
    AreLanguageFiles (languageFiles options table) := by
  constructor
  · intro file member
    simp only [languageFiles, mem_append, mem_cons, mem_map] at member
    rcases member with (rfl | ⟨directory, -, rfl⟩) | ⟨code, member, rfl⟩
    · exact ⟨_, _, isLanguageName_whole, rfl⟩
    · exact ⟨_, _, isLanguageName_script, rfl⟩
    · exact ⟨_, _, isLanguageName_localeFile (valid code member), rfl⟩
  · have other : some "languages.json".toList ≠ some "languages.js".toList := by decide
    have differ {text : Text}
        (plain : text = "languages.json".toList ∨ text = "languages.js".toList) :
        some text ∉ table.codes.map fun code => some (localeFile code).text := by
      rw [mem_map]
      rintro ⟨code, -, same⟩
      rcases plain with rfl | rfl <;> simp [localeFile_text] at same
    have different : (table.codes.map fun code => some (localeFile code).text).Nodup :=
      table.locales.nodup_keys.map fun a b same => localeFile_inj (Option.some.inj same)
    rw [map_fileName?_languageFiles options valid]
    cases options.scriptDirectory with
    | none => exact nodup_cons.mpr ⟨differ (.inl rfl), different⟩
    | some directory =>
      refine nodup_cons.mpr ⟨?_, nodup_cons.mpr ⟨differ (.inr rfl), different⟩⟩
      exact not_mem_cons_of_ne_of_not_mem other (differ (.inl rfl))

theorem areLanguageFiles_mergedTable (options : ExportOptions) (disk : Disk) (paths : List Path) :
    AreLanguageFiles (languageFiles options (mergedTable disk paths)) :=
  areLanguageFiles_languageFiles options fun _ => isValidCode_of_mem_mergedTable

/-- The places of files and of their temporary siblings. -/
def cellsOf (disk : Disk) (files : List (Path × Text)) : Set Location :=
  {l | ∃ file ∈ files, l ∈ cell disk file.1}

theorem cellsOf_eq {other : Disk} (home : other.home = disk.home) (files : List (Path × Text)) :
    cellsOf other files = cellsOf disk files := by
  simp only [cellsOf, cell_eq home]

namespace AreLanguageFiles

variable {file : Path × Text} {files : List (Path × Text)}

theorem tail (h : AreLanguageFiles (file :: files)) : AreLanguageFiles files :=
  ⟨fun other member => h.named other (mem_cons_of_mem file member),
    (nodup_cons.mp h.distinct).2⟩

/-- A language file is neither a later one nor the temporary sibling of a later one. -/
theorem not_mem_cellsOf (h : AreLanguageFiles (file :: files)) (disk : Disk) :
    disk.placeOf file.1 ∉ cellsOf disk files := by
  obtain ⟨base, name, named, joined⟩ := h.named file mem_cons_self
  have new : file.1.fileName? ∉ files.map fun file => file.1.fileName? :=
    (nodup_cons.mp h.distinct).1
  rw [joined, fileName?_join base named.isName] at new
  rintro ⟨other, member, inside⟩
  obtain ⟨base', name', named', joined'⟩ := h.tail.named other member
  rw [joined, joined', placeOf_join disk base named.isName,
    cell_join disk base' named'.isName] at inside
  rcases inside with same | same <;> have names := (append_singleton_inj.mp same).2
  · refine new (mem_map.mpr ⟨other, member, ?_⟩)
    rw [joined', fileName?_join base' named'.isName, names]
  · have first := named.first
    simp [names, temporaryName] at first

/-- A component is no language file. -/
theorem not_isSource (h : AreLanguageFiles files) {disk : Disk} {l : Location}
    (inside : l ∈ cellsOf disk files) : ¬ IsSource l := by
  obtain ⟨file, member, inside⟩ := inside
  obtain ⟨base, name, named, joined⟩ := h.named file member
  rw [joined, cell_join disk base named.isName] at inside
  rintro ⟨above, source, ⟨stem, rfl⟩, rfl⟩
  rcases inside with same | same <;> have names := (append_singleton_inj.mp same).2
  · rcases named.last with last | last <;> simp [← names] at last
  · have last := getLast?_temporaryName name
    simp [← names] at last

end AreLanguageFiles

theorem of_writeFiles_cons_eq_ok {after : Disk} {path : Path} {text : Text}
    {outcomes : List WriteOutcome} {log : Log}
    (wrote : writeFiles disk ((path, text) :: files) = (.ok outcomes, after, log)) :
    ∃ outcome later, ∃ middle : Disk, ∃ log', outcomes = outcome :: later ∧
      disk.writeIfChanged path (Text.toBytes text) = (.ok outcome, middle) ∧
      writeFiles middle files = (.ok later, after, log') := by
  rw [writeFiles] at wrote
  split at wrote
  · simp at wrote
  · next outcome middle first =>
    obtain ⟨result, last, log', rest⟩ : ∃ result last log',
      writeFiles middle files = (result, last, log') := ⟨_, _, _, rfl⟩
    simp only [rest, Prod.mk.injEq] at wrote
    obtain ⟨mapped, rfl, -⟩ := wrote
    cases result with
    | error e => simp [Except.map] at mapped
    | ok later =>
      exact ⟨outcome, later, middle, log', (Except.ok.inj mapped).symm, first, rest⟩

/-- After all files have been written, each of them holds its text. -/
theorem of_writeFiles_eq_ok {after : Disk} {outcomes : List WriteOutcome} {log : Log}
    (free : disk.LinkFree) (valid : AreLanguageFiles files)
    (wrote : writeFiles disk files = (.ok outcomes, after, log)) :
    Grows (cellsOf disk files) disk after ∧
      (∀ file ∈ files, after.read file.1 = .ok (Text.toBytes file.2)) ∧
      outcomes.length = files.length := by
  induction files generalizing disk outcomes log with
  | nil =>
    rw [writeFiles, Prod.mk.injEq, Prod.mk.injEq] at wrote
    obtain ⟨same, rfl, -⟩ := wrote
    exact ⟨.refl _ disk, by simp, by simp [← Except.ok.inj same]⟩
  | cons file files ih =>
    obtain ⟨path, text⟩ := file
    obtain ⟨outcome, later, middle, log', rfl, first, rest⟩ := of_writeFiles_cons_eq_ok wrote
    obtain ⟨base, name, named, rfl⟩ := valid.named (path, text) mem_cons_self
    obtain ⟨grows, opens, there, read⟩ := of_writeIfChanged_eq_ok free named.isName first
    obtain ⟨grows', reads, length⟩ := ih (grows.free free) valid.tail rest
    -- The later files lie elsewhere, so that this one is read as it has been left.
    have out := valid.not_mem_cellsOf middle
    rw [cellsOf_eq grows.home] at grows' out
    rw [placeOf_join middle base named.isName] at out
    rw [← grows.placeOf_eq] at there
    refine ⟨?_, ?_, by simp [length]⟩
    · refine (grows.mono fun l inside => ?_).trans (grows'.mono fun l inside => ?_)
      · exact ⟨_, mem_cons_self, inside⟩
      · obtain ⟨other, member, inside⟩ := inside
        exact ⟨other, mem_cons_of_mem _ member, inside⟩
    · rw [forall_mem_cons]
      exact ⟨(grows'.read_eq (grows.free free) named.isName opens out there).trans read, reads⟩

/-- Files that hold their texts are left as they are. -/
theorem writeFiles_of_read (reads : ∀ file ∈ files, disk.read file.1 = .ok (Text.toBytes file.2)) :
    ∃ log, writeFiles disk files = (.ok (List.replicate files.length .unchanged), disk, log) := by
  induction files with
  | nil => exact ⟨[], rfl⟩
  | cons file files ih =>
    rw [forall_mem_cons] at reads
    obtain ⟨log, rest⟩ := ih reads.2
    rw [writeFiles, writeIfChanged_of_read reads.1]
    simp only [rest]
    exact ⟨_, rfl⟩

end ComponentPack.Build
