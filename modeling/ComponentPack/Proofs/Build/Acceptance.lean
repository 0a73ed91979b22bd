import ComponentPack.Proofs.Build.Reexport
import Mathlib

/-!
Which language files can be written. The directories may be there and have room for every name that
a file can have: a code that makes no such name, not even with the marks of a temporary sibling,
still ends the export, unless its file holds the right text already. Every other code is written.
-/

set_option autoImplicit false

namespace ComponentPack.Build

open Component Files Disk ComponentPack.Path ComponentPack.Localization Text

variable {name code : Text} {content : ByteArray}

/-- A directory that is there, in which every name that a file can have makes a path that is
accepted, and where no directory stands in the way of a language file. -/
structure Receives (disk : Disk) (directory : Path) : Prop where
  opens : disk.OpensPath directory
  room : ∀ name, IsFileName name → refusal? (directory.join ⟨name⟩) = none
  vacant : ∀ name, IsLanguageName name →
    disk.node? (disk.placeOf directory ++ [name]) ≠ some .directory ∧
      disk.node? (disk.placeOf directory ++ [temporaryName name]) ≠ some .directory

theorem Receives.transfer {disk other : Disk} {directory : Path}
    (receives : Receives disk directory) {area : Set Location} (agree : Agree area disk other) :
    Receives other directory where
  opens := agree.opensPath receives.opens
  room := receives.room
  vacant name named := by
    rw [agree.placeOf_eq, ne_eq, ne_eq, agree.directory, agree.directory]
    exact receives.vacant name named

theorem nul_temporaryName (nul : ∀ c ∈ name, c.toNat ≠ 0) :
    ∀ c ∈ temporaryName name, c.toNat ≠ 0 := by
  intro c member
  have marks : (".tmp".toList.all fun c => c.toNat ≠ 0) = true := by decide
  rcases List.mem_append.mp member with inside | inside
  · rcases List.mem_cons.mp inside with rfl | inside
    · decide
    · exact nul c inside
  · exact of_decide_eq_true (List.all_eq_true.mp marks c inside)

/-- The temporary sibling of a file has five more bytes in its name. -/
theorem isFileName_temporaryName_iff (named : IsName name) :
    IsFileName (temporaryName name) ↔
      (∀ c ∈ name, c.toNat ≠ 0) ∧ name.byteSize + 5 ≤ maxName := by
  have size : (temporaryName name).byteSize = name.byteSize + 5 := by
    have dot : Char.utf8Size '.' = 1 := by decide
    have mark : Text.byteSize ".tmp" = 4 := by decide
    rw [temporaryName, List.cons_append, Text.byteSize, byteSize_append, dot, mark]
    omega
  rw [← size]
  constructor
  · exact fun fits => ⟨fun c member => fits.nul c (by simp [temporaryName, member]), fits.short⟩
  · rintro ⟨nul, short⟩
    exact ⟨isName_temporaryName named, nul_temporaryName nul, short⟩

theorem isFileName_of_temporaryName (named : IsName name) (fits : IsFileName (temporaryName name)) :
    IsFileName name := by
  obtain ⟨nul, short⟩ := (isFileName_temporaryName_iff named).mp fits
  exact ⟨named, nul, by omega⟩

/-- Without the slashes and dots at the end of a directory, paths in it are no longer. -/
theorem byteSize_bare_join_le (base : Path) (named : IsName name) :
    (base.bare.join ⟨name⟩).text.byteSize ≤ (base.join ⟨name⟩).text.byteSize := by
  by_cases empty : base.text = []
  · rw [join_of_nil empty, join_of_nil ((bare_text_eq_nil_iff base).mpr empty)]
  have filled : base.bare.text ≠ [] := mt (bare_text_eq_nil_iff base).mp empty
  have shorter := byteSize_le_of_isPrefix (prefix_bare base)
  have slash : Char.utf8Size '/' = 1 := by decide
  rcases endsInSlash_bare base with last | root
  · have last' : base.bare.text.getLast? ≠ some '/' := by simpa [endsInSlash] using last
    rw [join_of_bare named filled last', byteSize_append, Text.byteSize]
    rcases join_cases base named with ⟨none, -⟩ | ⟨front, whole, joined⟩ | ⟨-, -, joined⟩
    · exact absurd none empty
    · -- The slash at the end of the directory is not in the shorter path.
      have inside : base.bare.text <+: front := by
        have first := prefix_bare base
        rw [whole] at first
        rcases List.prefix_concat_iff.mp first with same | inside
        · simp [same] at last'
        · exact inside
      have shorter' := byteSize_le_of_isPrefix inside
      rw [joined, byteSize_append, Text.byteSize]
      omega
    · rw [joined, byteSize_append, Text.byteSize]
      omega
  · have one : Text.byteSize ['/'] = 1 := by decide
    rw [root, join_of_slash named rfl, byteSize_append, one]
    rcases join_cases base named with ⟨none, -⟩ | ⟨front, whole, joined⟩ | ⟨-, -, joined⟩
    · exact absurd none empty
    · rw [joined, byteSize_append, Text.byteSize]
      omega
    · rw [joined, byteSize_append, Text.byteSize]
      omega

section Write

variable {disk : Disk} {base : Path} {name : Text}

theorem nul_join (named : IsName name) (nul : ∀ c ∈ base.text, c.toNat ≠ 0)
    (nul' : ∀ c ∈ name, c.toNat ≠ 0) : ∀ c ∈ (base.join ⟨name⟩).text, c.toNat ≠ 0 := by
  intro c member
  by_cases slash : c = '/'
  · rw [slash]
    decide
  · exact ((mem_text_join base named slash).mp member).elim (nul c) (nul' c)

theorem Receives.nul (receives : Receives disk base) : ∀ c ∈ base.text, c.toNat ≠ 0 := by
  have named : IsFileName "a" := by decide
  intro c member
  exact (refusal?_eq_none_iff.mp (receives.room _ named)).1 c
    ((prefix_join base named.toIsName).subset member)

theorem Receives.refusal?_temporary (receives : Receives disk base) (named : IsName name)
    (fits : IsFileName (temporaryName name)) :
    refusal? (temporary (base.join ⟨name⟩)) = none := by
  have accepted := refusal?_eq_none_iff.mp (receives.room _ fits)
  rw [temporary_eq base named, refusal?_eq_none_iff]
  exact ⟨nul_join fits.toIsName (fun c inside => receives.nul c ((prefix_bare base).subset inside))
      fits.nul, join_text_ne_nil _ fits.toIsName,
    Nat.lt_of_le_of_lt (byteSize_bare_join_le base fits.toIsName) accepted.2.2⟩

theorem Receives.parentResult_eq (receives : Receives disk base) : parentResult base = .ok () := by
  have named : IsFileName "a" := by decide
  have inside := (prefix_bare base).trans (prefix_join base named.toIsName)
  unfold parentResult
  split
  · rfl
  · next filled =>
    rw [refusal?_of_isPrefix inside (receives.room _ named) fun empty =>
      filled (.inl ((bare_text_eq_nil_iff base).mp empty))]

/-- Whether a text can be stored at a path: the temporary sibling can have its name, or the text is
there already. -/
def Storable (disk : Disk) (path : Path) (content : ByteArray) : Prop :=
  (∃ name, path.fileName? = some name ∧ IsFileName (temporaryName name)) ∨
    disk.read path = .ok content

theorem storable_join_iff (named : IsName name) {content : ByteArray} :
    Storable disk (base.join ⟨name⟩) content ↔
      IsFileName (temporaryName name) ∨ disk.read (base.join ⟨name⟩) = .ok content := by
  simp [Storable, fileName?_join base named]

theorem obstacle?_of_long {path : Path} (filled : path.text ≠ [])
    (nul : ∀ c ∈ path.text, c.toNat ≠ 0) (long : maxName < name.byteSize) :
    obstacle? path name = some .nameTooLong := by
  have none : (path.text.any fun c => c.toNat = 0) = false := by simpa using nul
  have some' : path.text.isEmpty = false := by simpa using filled
  rw [obstacle?, refusal?, none, some']
  by_cases wide : maxPath ≤ path.text.byteSize <;> simp [wide, long]

theorem Receives.needsWrite_eq (receives : Receives disk base) (free : disk.LinkFree)
    (named : IsLanguageName name) (fits : IsFileName name)
    (other : disk.read (base.join ⟨name⟩) ≠ .ok content) :
    disk.needsWrite (base.join ⟨name⟩) content = .ok true := by
  have clear := obstacle?_eq_none (receives.room name fits) fits.short
  rw [needsWrite]
  rw [read_join free receives.opens named.isName, clear] at other ⊢
  cases there : disk.node? (disk.placeOf base ++ [name]) with
  | none => rfl
  | some node =>
    cases node with
    | directory => exact absurd there (receives.vacant name named).1
    | link target => exact absurd there (free _ target)
    | file existing =>
      have differs : existing ≠ content := fun same => other (by rw [there, same]; rfl)
      simp only [Disk.contentOf, Except.ok.injEq]
      rw [bne, Bool.not_eq_true', ← Bool.not_eq_true, beq_bytes_iff]
      exact differs

theorem Receives.writeIfChanged_ok (receives : Receives disk base) (free : disk.LinkFree)
    (named : IsLanguageName name) (storable : Storable disk (base.join ⟨name⟩) content) :
    ∃ outcome after, disk.writeIfChanged (base.join ⟨name⟩) content = (.ok outcome, after) := by
  by_cases same : disk.read (base.join ⟨name⟩) = .ok content
  · exact ⟨_, _, writeIfChanged_of_read same⟩
  have fits := ((storable_join_iff named.isName).mp storable).resolve_right same
  have fits' := isFileName_of_temporaryName named.isName fits
  have clear := obstacle?_eq_none (receives.room name fits') fits'.short
  have clear' := obstacle?_eq_none (receives.refusal?_temporary named.isName fits) fits.short
  obtain ⟨vacant, vacant'⟩ := receives.vacant name named
  have wrote := write_temporary free receives.opens named.isName content
  rw [clear', if_neg vacant'] at wrote
  obtain ⟨-, renamed⟩ := rename_stored free receives.opens named.isName wrote
  rw [clear] at renamed
  simp only [if_neg vacant] at renamed
  refine ⟨.written, disk.written base name content, ?_⟩
  simp only [writeIfChanged, receives.needsWrite_eq free named fits' same, replace,
    createParent_join free receives.opens named.isName, receives.parentResult_eq, wrote, commit,
    renamed]

/-- A name that no temporary sibling can have is refused, by what is wrong with it. -/
theorem Receives.writeIfChanged_error (receives : Receives disk base) (free : disk.LinkFree)
    (named : IsLanguageName name) (refused : ¬ Storable disk (base.join ⟨name⟩) content) :
    ∃ fault, (fault = .nulInName ∨ fault = .nameTooLong) ∧
      disk.writeIfChanged (base.join ⟨name⟩) content = (.error fault, disk) := by
  obtain ⟨unfit, other⟩ := not_or.mp (mt (storable_join_iff named.isName).mpr refused)
  have temporary := isName_temporaryName named.isName
  have read := read_join free receives.opens named.isName
  by_cases nul : ∃ c ∈ name, c.toNat = 0
  · obtain ⟨c, member, zero⟩ := nul
    have slash : c ≠ '/' := by
      rintro rfl
      exact absurd zero (by decide)
    have inside : (base.join ⟨name⟩).text.any (fun c => c.toNat = 0) = true :=
      List.any_eq_true.mpr ⟨c, (mem_text_join base named.isName slash).mpr (.inr member),
        decide_eq_true zero⟩
    rw [obstacle?, refusal?, if_pos inside] at read
    exact ⟨.nulInName, .inl rfl, by simp only [writeIfChanged, needsWrite, read]⟩
  have nul' : ∀ c ∈ name, c.toNat ≠ 0 := fun c member zero => nul ⟨c, member, zero⟩
  refine ⟨.nameTooLong, .inr rfl, ?_⟩
  by_cases long : maxName < name.byteSize
  · rw [obstacle?_of_long (join_text_ne_nil base named.isName)
      (nul_join named.isName receives.nul nul') long] at read
    simp only [writeIfChanged, needsWrite, read]
  · -- The name itself is accepted, so that only the longer one of its sibling is not.
    have fits : IsFileName name := ⟨named.isName, nul', Nat.not_lt.mp long⟩
    have long' : maxName < (temporaryName name).byteSize :=
      Nat.lt_of_not_le fun short => unfit ⟨temporary, nul_temporaryName nul', short⟩
    have wrote := write_temporary free receives.opens named.isName content
    rw [temporary_eq base named.isName, obstacle?_of_long (join_text_ne_nil _ temporary)
      (nul_join temporary (fun c inside => receives.nul c ((prefix_bare base).subset inside))
        (nul_temporaryName nul')) long', ← temporary_eq base named.isName] at wrote
    simp only [writeIfChanged, receives.needsWrite_eq free named fits other, replace,
      createParent_join free receives.opens named.isName, receives.parentResult_eq, wrote]

end Write

/-- Language files, each of them in a directory that receives it. -/
def AreReceived (disk : Disk) (files : List (Path × Text)) : Prop :=
  ∀ file ∈ files, ∃ base name, file.1 = base.join ⟨name⟩ ∧ IsLanguageName name ∧ Receives disk base

section Files

variable {disk : Disk} {file : Path × Text} {files : List (Path × Text)}

theorem AreReceived.transfer {other : Disk} (received : AreReceived disk files)
    {area : Set Location} (agree : Agree area disk other) : AreReceived other files := by
  intro file member
  obtain ⟨base, name, joined, named, receives⟩ := received file member
  exact ⟨base, name, joined, named, receives.transfer agree⟩

/-- Writing a language file leaves the others to be read as before. -/
theorem AreReceived.read_eq (received : AreReceived disk (file :: files))
    (valid : AreLanguageFiles (file :: files)) (free : disk.LinkFree) {after : Disk}
    (confined : Confined (cell disk file.1) disk after) {other : Path × Text}
    (member : other ∈ files) : after.read other.1 = disk.read other.1 := by
  obtain ⟨base, name, joined, named, receives⟩ := received file List.mem_cons_self
  obtain ⟨base', name', joined', named', receives'⟩ :=
    received other (List.mem_cons_of_mem file member)
  have unseen := confined.agree (Set.disjoint_empty _)
  have outside : disk.placeOf base' ++ [name'] ∉ cell disk file.1 := by
    rw [joined, cell_join disk base named.isName]
    rintro (same | same) <;> have names := (List.append_singleton_inj.mp same).2
    · have new : file.1.fileName? ∉ files.map fun file => file.1.fileName? :=
        (List.nodup_cons.mp valid.distinct).1
      rw [joined, fileName?_join base named.isName, ← names] at new
      refine new (List.mem_map.mpr ⟨other, member, ?_⟩)
      rw [joined', fileName?_join base' named'.isName]
    · have first := named'.first
      simp [names, temporaryName] at first
  rw [joined', read_join (confined.free free) (unseen.opensPath receives'.opens) named'.isName,
    read_join free receives'.opens named'.isName, unseen.placeOf_eq, confined.outside _ outside]

/-- Files are written up to the first one that cannot be stored. -/
theorem AreReceived.writeFiles_cases (received : AreReceived disk files)
    (valid : AreLanguageFiles files) (free : disk.LinkFree) :
    ((∀ file ∈ files, Storable disk file.1 (Text.toBytes file.2)) ∧
        ∃ outcomes, (writeFiles disk files).1 = .ok outcomes) ∨
      ∃ file ∈ files, ¬ Storable disk file.1 (Text.toBytes file.2) ∧
        ∃ fault, (fault = .nulInName ∨ fault = .nameTooLong) ∧
          (writeFiles disk files).1 = .error (.write file.1 fault) := by
  induction files generalizing disk with
  | nil => exact .inl ⟨by simp, [], rfl⟩
  | cons file files ih =>
    obtain ⟨path, text⟩ := file
    obtain ⟨base, name, joined, named, receives⟩ := received _ List.mem_cons_self
    obtain rfl : path = base.join ⟨name⟩ := joined
    by_cases storable : Storable disk (base.join ⟨name⟩) (Text.toBytes text)
    · obtain ⟨outcome, after, wrote⟩ := receives.writeIfChanged_ok free named storable
      have writes := writes_writeIfChanged free receives.opens named.isName (Text.toBytes text)
      rw [wrote] at writes
      obtain ⟨confined, -, -⟩ := writes.of_ok free receives.opens named.isName
      rw [← cell_join disk base named.isName] at confined
      have later : AreReceived disk files :=
        fun other member => received other (List.mem_cons_of_mem _ member)
      have same : ∀ other ∈ files, Storable after other.1 (Text.toBytes other.2) ↔
          Storable disk other.1 (Text.toBytes other.2) := by
        intro other member
        rw [Storable, Storable, received.read_eq valid free confined member]
      rcases ih (later.transfer (confined.agree (Set.disjoint_empty _))) valid.tail
        (confined.free free) with
        ⟨all, outcomes, done⟩ | ⟨other, member, refused, fault, known, failed⟩
      · refine .inl ⟨List.forall_mem_cons.mpr ⟨storable, ?_⟩, outcome :: outcomes, ?_⟩
        · exact fun other member => (same other member).mp (all other member)
        · simp only [writeFiles, wrote, done, Except.map]
      · refine .inr ⟨other, List.mem_cons_of_mem _ member, ?_, fault, known, ?_⟩
        · exact mt (same other member).mpr refused
        · simp only [writeFiles, wrote, failed, Except.map]
    · obtain ⟨fault, known, failed⟩ := receives.writeIfChanged_error free named storable
      exact .inr ⟨_, List.mem_cons_self, storable, fault, known, by simp only [writeFiles, failed]⟩

end Files

/-- A code that leaves room for the names of its language file and the temporary sibling. -/
def IsShortCode (code : Text) : Prop := (∀ c ∈ code, c.toNat ≠ 0) ∧ code.byteSize ≤ 236

theorem isShortCode_of_all (short : ((code.all fun c => c.toNat ≠ 0) && code.byteSize ≤ 236) = true)
    :
    IsShortCode code := by
  rw [Bool.and_eq_true, List.all_eq_true, decide_eq_true_eq] at short
  exact ⟨fun c member => of_decide_eq_true (short.1 c member), short.2⟩

/-- The language file of a code can be written, or needs not be. -/
def FitsLocale (options : ExportOptions) (disk : Disk) (table : Table) (code : Text) : Prop :=
  IsShortCode code ∨ disk.read (options.jsonDirectory.join (localeFile code)) =
    .ok (Text.toBytes (languageText (table.project code)))

theorem byteSize_localeFile (code : Text) :
    (localeFile code).text.byteSize = code.byteSize + 14 := by
  have front : Text.byteSize "language_" = 9 := by decide
  have back : Text.byteSize ".json" = 5 := by decide
  rw [localeFile_text, byteSize_append, byteSize_append, front, back]
  omega

theorem nul_localeFile_iff (code : Text) :
    (∀ c ∈ (localeFile code).text, c.toNat ≠ 0) ↔ ∀ c ∈ code, c.toNat ≠ 0 := by
  have marks : (("language_".toList ++ ".json".toList).all fun c => c.toNat ≠ 0) = true := by decide
  rw [List.all_append, Bool.and_eq_true, List.all_eq_true, List.all_eq_true] at marks
  rw [localeFile_text, List.append_assoc, List.forall_mem_append, List.forall_mem_append]
  refine ⟨fun h => h.2.1, fun h => ⟨fun c member => ?_, h, fun c member => ?_⟩⟩
  · exact of_decide_eq_true (marks.1 c member)
  · exact of_decide_eq_true (marks.2 c member)

theorem isFileName_localeFile_iff (valid : Table.isValidCode code = true) :
    IsFileName (localeFile code).text ↔ (∀ c ∈ code, c.toNat ≠ 0) ∧ code.byteSize ≤ 241 := by
  have named := (isLanguageName_localeFile valid).isName
  rw [← nul_localeFile_iff]
  constructor
  · intro fits
    have short := fits.short
    rw [byteSize_localeFile, maxName] at short
    exact ⟨fits.nul, by omega⟩
  · rintro ⟨nul, short⟩
    refine ⟨named, nul, ?_⟩
    rw [byteSize_localeFile, maxName]
    omega

theorem storable_localeFile_iff {options : ExportOptions} {disk : Disk} {table : Table}
    (valid : Table.isValidCode code = true) :
    Storable disk (options.jsonDirectory.join (localeFile code))
      (Text.toBytes (languageText (table.project code))) ↔ FitsLocale options disk table code := by
  have named := (isLanguageName_localeFile valid).isName
  have short : (localeFile code).text.byteSize + 5 ≤ maxName ↔ code.byteSize ≤ 236 := by
    rw [byteSize_localeFile, maxName]
    omega
  have joined := @storable_join_iff disk options.jsonDirectory (localeFile code).text named
    (Text.toBytes (languageText (table.project code)))
  rw [isFileName_temporaryName_iff named, nul_localeFile_iff, short] at joined
  exact joined

section Export

variable {options : ExportOptions} {disk : Disk} {paths : List Path}

theorem areReceived_languageFiles (json : Receives disk options.jsonDirectory)
    (script : ∀ directory, options.scriptDirectory = some directory → Receives disk directory) :
    AreReceived disk (languageFiles options (mergedTable disk paths)) := by
  intro file member
  rw [languageFiles, List.cons_append, List.mem_cons, List.mem_append, List.mem_map, List.mem_map]
    at member
  rcases member with rfl | ⟨directory, wanted, rfl⟩ | ⟨code, known, rfl⟩
  · exact ⟨_, _, rfl, isLanguageName_whole, json⟩
  · exact ⟨_, _, rfl, isLanguageName_script, script directory (Option.mem_toList.mp wanted)⟩
  · exact ⟨_, _, rfl, isLanguageName_localeFile (isValidCode_of_mem_mergedTable known), json⟩

/-- Only the files of single locales can be refused. -/
theorem exists_code_of_not_storable {file : Path × Text}
    (member : file ∈ languageFiles options (mergedTable disk paths))
    (refused : ¬ Storable disk file.1 (Text.toBytes file.2)) :
    ∃ code ∈ (mergedTable disk paths).codes, file.1 = options.jsonDirectory.join (localeFile code) ∧
      ¬ FitsLocale options disk (mergedTable disk paths) code := by
  have whole : IsFileName (temporaryName "languages.json") := by decide
  have alone : IsFileName (temporaryName "languages.js") := by decide
  rw [languageFiles, List.cons_append, List.mem_cons, List.mem_append, List.mem_map, List.mem_map]
    at member
  rcases member with rfl | ⟨directory, wanted, rfl⟩ | ⟨code, known, rfl⟩
  · exact absurd ((storable_join_iff isLanguageName_whole.isName).mpr (.inl whole)) refused
  · exact absurd ((storable_join_iff isLanguageName_script.isName).mpr (.inl alone)) refused
  · exact ⟨code, known, rfl,
      mt (storable_localeFile_iff (isValidCode_of_mem_mergedTable known)).mpr refused⟩

/-- With directories that receive every file name, an export ends well if and only if each locale
has a short code or is up to date; then it is exact. Otherwise a locale whose code makes no file
name ends it, although that code has been accepted. -/
theorem exportLanguages_eq_ok_iff (tree : disk.IsTree) (free : disk.LinkFree)
    (found : Discovered disk options.directory paths)
    (json : Receives disk options.jsonDirectory)
    (script : ∀ directory, options.scriptDirectory = some directory → Receives disk directory) :
    ((∃ report, (exportLanguages options disk).result = .ok report) ↔
      ∀ code ∈ (mergedTable disk paths).codes,
        FitsLocale options disk (mergedTable disk paths) code) ∧
    (∀ report, (exportLanguages options disk).result = .ok report →
      Exported options disk report (exportLanguages options disk).disk paths
        (mergedTable disk paths)) ∧
    (∀ e, (exportLanguages options disk).result = .error e →
      ∃ code ∈ (mergedTable disk paths).codes,
        ¬ FitsLocale options disk (mergedTable disk paths) code ∧
        ∃ fault, (fault = .nulInName ∨ fault = .nameTooLong) ∧
          e = .write (options.jsonDirectory.join (localeFile code)) fault) ∧
    ∀ text table, Table.parse text = .ok table → ∀ code ∈ table.codes,
      disk.placeOf (options.jsonDirectory.join (localeFile code)) =
          disk.placeOf options.jsonDirectory ++ [(localeFile code).text] ∧
        (IsFileName (localeFile code).text ↔
          (∀ c ∈ code, c.toNat ≠ 0) ∧ code.byteSize ≤ 241) := by
  have searched := (discoverBy_eq_ok_iff tree free (.namesIn disk)).mpr found
  obtain ⟨result, left⟩ := exportLanguagesBy_of_discovered searched
  have names : ∀ text table, Table.parse text = .ok table → ∀ code ∈ table.codes,
      disk.placeOf (options.jsonDirectory.join (localeFile code)) =
          disk.placeOf options.jsonDirectory ++ [(localeFile code).text] ∧
        (IsFileName (localeFile code).text ↔
          (∀ c ∈ code, c.toNat ≠ 0) ∧ code.byteSize ≤ 241) := by
    intro text table parsed code known
    have valid := Table.isValidCode_of_parse parsed code known
    exact ⟨placeOf_join disk _ (isLanguageName_localeFile valid).isName,
      isFileName_localeFile_iff valid⟩
  have received : AreReceived disk (languageFiles options (mergedTable disk paths)) :=
    areReceived_languageFiles json script
  rcases received.writeFiles_cases (areLanguageFiles_mergedTable options disk paths) free with
    ⟨all, outcomes, done⟩ | ⟨file, member, refused, fault, known, failed⟩
  · have ended : (exportLanguages options disk).result =
        .ok (exportReport disk paths outcomes) := by
      rw [exportLanguages, result, done]
      rfl
    have fits : ∀ code ∈ (mergedTable disk paths).codes,
        FitsLocale options disk (mergedTable disk paths) code := by
      intro code member
      have listed : (options.jsonDirectory.join (localeFile code),
          languageText ((mergedTable disk paths).project code)) ∈
            languageFiles options (mergedTable disk paths) :=
        List.mem_append_right _ (List.mem_map.mpr ⟨code, member, rfl⟩)
      exact (storable_localeFile_iff (isValidCode_of_mem_mergedTable member)).mp (all _ listed)
    refine ⟨⟨fun _ => fits, fun _ => ⟨_, ended⟩⟩, ?_, ?_, names⟩
    · intro report finished
      rw [ended, Except.ok.injEq] at finished
      rw [← finished, exportLanguages, left]
      exact exported_of_writeFiles free found (Prod.ext done rfl)
    · intro e broken
      rw [ended] at broken
      simp at broken
  · obtain ⟨code, listed, place, unfit⟩ := exists_code_of_not_storable member refused
    have ended : (exportLanguages options disk).result =
        .error (.write (options.jsonDirectory.join (localeFile code)) fault) := by
      rw [exportLanguages, result, failed, place]
      rfl
    refine ⟨⟨?_, fun all => absurd (all code listed) unfit⟩, ?_, ?_, names⟩
    · rintro ⟨report, finished⟩
      rw [ended] at finished
      simp at finished
    · intro report finished
      rw [ended] at finished
      simp at finished
    · intro e broken
      rw [ended, Except.error.injEq] at broken
      exact ⟨code, listed, unfit, fault, known, broken.symm⟩

end Export

/-- Two components with messages, and a directory for language files. -/
def localized (first second : ByteArray) : Disk where
  nodes := .ofList [
    (["json"], .directory),
    (["vue"], .directory),
    (["vue", "a.vue"], .file first),
    (["vue", "b.vue"], .file second)]
  home := []

def localizedOptions : ExportOptions where
  directory := .ofString "vue"
  jsonDirectory := .ofString "json"
  scriptDirectory := none

def localizedPaths : List Path := [.ofString "vue/a.vue", .ofString "vue/b.vue"]

theorem discover_localized (first second : ByteArray) :
    (discover (localized first second) localizedOptions.directory).1 = .ok localizedPaths := by
  cbv

theorem receives_localized (first second : ByteArray) :
    Receives (localized first second) localizedOptions.jsonDirectory where
  opens := ⟨rfl, .inr (.inr (by decide)), rfl⟩
  room name named := by
    have whole : (Path.ofString "json").join ⟨name⟩ = _ :=
      join_of_bare named.toIsName (by decide) (by decide)
    have nul : ("json".toList.all fun c => c.toNat ≠ 0) = true := by decide
    refine refusal?_eq_none_iff.mpr ⟨nul_join named.toIsName
      (fun c member => of_decide_eq_true (List.all_eq_true.mp nul c member)) named.nul,
      join_text_ne_nil _ named.toIsName, ?_⟩
    have short := named.short
    have front : Text.byteSize (Path.ofString "json").text = 4 := by decide
    have slash : Char.utf8Size '/' = 1 := by decide
    rw [localizedOptions, whole, byteSize_append, Text.byteSize, front, slash]
    rw [maxName] at short
    rw [maxPath]
    omega
  vacant name named := by
    have place : (localized first second).placeOf (.ofString "json") = ["json"] := by rfl
    have entries : (localized first second).nodes.entries = [
        (["json".toList], .directory),
        (["vue".toList], .directory),
        (["vue".toList, "a.vue".toList], .file first),
        (["vue".toList, "b.vue".toList], .file second)] := rfl
    have absent (text : Text) :
        (localized first second).node? (["json".toList] ++ [text]) ≠ some .directory := by
      intro there
      have entry := Dictionary.get?_eq_some_iff.mp there
      rw [entries] at entry
      simp at entry
    rw [localizedOptions, place]
    exact ⟨absent name, absent (temporaryName name)⟩

theorem readText_localized (first second : Text) :
    (localized (Text.toBytes first) (Text.toBytes second)).readText (.ofString "vue/a.vue") =
        .ok first ∧
      (localized (Text.toBytes first) (Text.toBytes second)).readText (.ofString "vue/b.vue") =
        .ok second := by
  have bytes (a b : ByteArray) : (localized a b).read (.ofString "vue/a.vue") = .ok a ∧
      (localized a b).read (.ofString "vue/b.vue") = .ok b := by
    constructor <;> cbv
  exact ⟨readText_of_read (bytes _ _).1, readText_of_read (bytes _ _).2⟩

theorem codes_localized {first second : Text} {codes : List Text}
    (parsed : (Table.mergeAll ([first, second].filterMap fun text =>
      ((extractLocalization text).toOption.bind fun inner => (Table.parse inner).toOption))).codes =
        codes) :
    (mergedTable (localized (Text.toBytes first) (Text.toBytes second)) localizedPaths).codes =
      codes := by
  obtain ⟨one, two⟩ := readText_localized first second
  rw [← parsed, mergedTable, localizedPaths]
  simp only [List.filterMap_cons, List.filterMap_nil, localization?_of_readText one,
    localization?_of_readText two]

/-- Two locales with short codes are exported. -/
theorem exportLanguages_localized :
    let disk := localized (Text.toBytes "<i18n>\x7b\"de\":\x7b\x7d\x7d</i18n>".toList)
      (Text.toBytes "<i18n>\x7b\"en\":\x7b\x7d\x7d</i18n>".toList)
    disk.IsTree ∧ disk.LinkFree ∧ Receives disk localizedOptions.jsonDirectory ∧
      ∃ report, (exportLanguages localizedOptions disk).result = .ok report ∧
        Exported localizedOptions disk report (exportLanguages localizedOptions disk).disk
          localizedPaths (mergedTable disk localizedPaths) := by
  intro disk
  have tree : disk.IsTree := by decide +kernel
  have free : disk.LinkFree := by decide +kernel
  have json : Receives disk localizedOptions.jsonDirectory := receives_localized _ _
  have found := (discoverBy_eq_ok_iff tree free (.namesIn disk)).mp (discover_localized _ _)
  have codes : (mergedTable disk localizedPaths).codes = ["de".toList, "en".toList] :=
    codes_localized (by decide +kernel)
  have short : ∀ code ∈ ["de".toList, "en".toList], IsShortCode code := by
    refine List.forall_mem_cons.mpr ⟨isShortCode_of_all (by decide), ?_⟩
    exact List.forall_mem_singleton.mpr (isShortCode_of_all (by decide))
  obtain ⟨ends, exported, -⟩ :=
    exportLanguages_eq_ok_iff tree free found json (by simp [localizedOptions])
  obtain ⟨report, finished⟩ := ends.mpr fun code member => .inl (short code (codes ▸ member))
  exact ⟨tree, free, json, report, finished, exported report finished⟩

/-- The files can be written whatever their texts, up to the one with a character that no file name
has. -/
theorem writeFiles_localized (first second : ByteArray) (a b c : Text) :
    let wrote := writeFiles (localized first second) [
      (.ofString "json/languages.json", a), (.ofString "json/language_a\x00b.json", b),
      (.ofString "json/language_en.json", c)]
    wrote.1 = .error (.write (.ofString "json/language_a\x00b.json") .nulInName) ∧
      wrote.2.1.node? ["json", "language_en.json"] = none := by
  constructor <;> cbv

/-- A code with a NUL is accepted, makes no file name and ends the export; the messages of the other
component are not written. -/
theorem exportLanguages_localized_nul :
    let text := "\x7b\"a\\u0000b\":\x7b\x7d\x7d".toList
    let disk := localized (Text.toBytes ("<i18n>".toList ++ text ++ "</i18n>".toList))
      (Text.toBytes "<i18n>\x7b\"en\":\x7b\x7d\x7d</i18n>".toList)
    disk.IsTree ∧ disk.LinkFree ∧ Receives disk localizedOptions.jsonDirectory ∧
      (discover disk localizedOptions.directory).1 = .ok localizedPaths ∧
      (Table.parse text).toOption.map Table.codes = some ["a\x00b".toList] ∧
      ¬ IsFileName (localeFile "a\x00b".toList).text ∧
      (exportLanguages localizedOptions disk).result =
        .error (.write (.ofString "json/language_a\x00b.json") .nulInName) ∧
      (exportLanguages localizedOptions disk).disk.node?
        ["json".toList, "language_en.json".toList] = none := by
  intro text disk
  have codes : (mergedTable disk localizedPaths).codes = ["a\x00b".toList, "en".toList] :=
    codes_localized (by decide +kernel)
  have files : languageFiles localizedOptions (mergedTable disk localizedPaths) = [
      (.ofString "json/languages.json", languageText (mergedTable disk localizedPaths)),
      (.ofString "json/language_a\x00b.json",
        languageText ((mergedTable disk localizedPaths).project "a\x00b".toList)),
      (.ofString "json/language_en.json",
        languageText ((mergedTable disk localizedPaths).project "en".toList))] := by
    rw [languageFiles, codes]
    rfl
  obtain ⟨result, left⟩ := exportLanguagesBy_of_discovered (discover_localized _ _ :
    (discover disk localizedOptions.directory).1 = .ok localizedPaths)
  rw [files] at result left
  obtain ⟨failed, absent⟩ := writeFiles_localized
    (Text.toBytes ("<i18n>".toList ++ text ++ "</i18n>".toList))
    (Text.toBytes "<i18n>\x7b\"en\":\x7b\x7d\x7d</i18n>".toList)
    (languageText (mergedTable disk localizedPaths))
    (languageText ((mergedTable disk localizedPaths).project "a\x00b".toList))
    (languageText ((mergedTable disk localizedPaths).project "en".toList))
  refine ⟨by decide +kernel, by decide +kernel, receives_localized _ _, discover_localized _ _,
    by decide +kernel, by decide, ?_, ?_⟩
  · rw [exportLanguages, result, failed]
    rfl
  · rw [exportLanguages, left]
    exact absent

end ComponentPack.Build
