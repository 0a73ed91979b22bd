import ComponentPack.Proofs.Build.Verdict
import Mathlib

/-!
Failures of components leave the other components alone. A pass that fails as a whole changes
nothing. In any other pass a component that fails before it is written leaves no trace on the disk,
and the pass goes as if its file were not there.
-/

set_option autoImplicit false

namespace ComponentPack

open List

variable {path : Path}

namespace Files.Disk

/-- The disk without the files at some locations. -/
def withoutFiles (disk : Disk) (gone : List Location) : Disk :=
  { disk with nodes := disk.nodes.filter fun l _ => !gone.contains l }

/-- All these locations hold files. -/
def AreFiles (disk : Disk) (gone : List Location) : Prop :=
  ∀ l ∈ gone, ∃ content, disk.node? l = some (.file content)

section Fewer

variable {disk : Disk} {gone : List Location}

theorem node?_withoutFiles (files : disk.AreFiles gone) (l : Location) :
    (disk.withoutFiles gone).node? l = if l ∈ gone then none else disk.node? l := by
  cases l with
  | nil =>
    have root : [] ∉ gone := fun member => by
      obtain ⟨content, found⟩ := files [] member
      simp [node?] at found
    rw [if_neg root]
    rfl
  | cons name names =>
    have found := Dictionary.get?_filter disk.nodes (fun l _ => !gone.contains l) (name :: names)
    change (disk.nodes.filter _).get? (name :: names) = _
    rw [found]
    by_cases member : name :: names ∈ gone
    · simp [member]
    · cases there : disk.nodes.get? (name :: names) <;> simp [member, node?, there]

theorem node?_withoutFiles_directory_iff (files : disk.AreFiles gone) (l : Location) :
    (disk.withoutFiles gone).node? l = some .directory ↔ disk.node? l = some .directory := by
  rw [node?_withoutFiles files]
  split
  · next member =>
    obtain ⟨content, found⟩ := files l member
    simp [found]
  · rfl

theorem agree_withoutFiles (files : disk.AreFiles gone) {area : Set Location}
    (apart : ∀ l ∈ gone, l ∉ area) : Agree area disk (disk.withoutFiles gone) where
  home := rfl
  directory := node?_withoutFiles_directory_iff files
  inside l inside := by rw [node?_withoutFiles files, if_neg fun member => apart l member inside]

theorem ne_none_of_withoutFiles (files : disk.AreFiles gone) {l : Location}
    (present : (disk.withoutFiles gone).node? l ≠ none) : disk.node? l ≠ none := by
  rw [node?_withoutFiles files] at present
  split at present
  · exact absurd rfl present
  · exact present

theorem IsTree.withoutFiles (tree : disk.IsTree) (files : disk.AreFiles gone) :
    (disk.withoutFiles gone).IsTree where
  root := by
    have found := Dictionary.get?_filter disk.nodes (fun l _ => !gone.contains l) []
    rw [tree.root] at found
    exact found
  isFileName l name present := tree.isFileName l name (ne_none_of_withoutFiles files present)
  parent l name present := (node?_withoutFiles_directory_iff files l).mpr
    (tree.parent l name (ne_none_of_withoutFiles files present))

theorem LinkFree.withoutFiles (free : disk.LinkFree) (files : disk.AreFiles gone) :
    (disk.withoutFiles gone).LinkFree := by
  intro l target
  rw [node?_withoutFiles files]
  split
  · simp
  · exact free l target

end Fewer

end Files.Disk

namespace Build

open Component Files Disk ComponentPack.Path Render

variable {after : Disk} {failure : ComponentFailure}

section Fewer

variable {disk : Disk} {directory : Path} {paths removed : List Path}

/-- Where components lie that are taken away. -/
def placesOf (disk : Disk) (removed : List Path) : List Location := removed.map disk.placeOf

theorem Discovered.areFiles (found : Discovered disk directory paths) (tree : disk.IsTree)
    (among : ∀ path ∈ removed, path ∈ paths) : disk.AreFiles (placesOf disk removed) := by
  intro l member
  obtain ⟨path, listed, rfl⟩ := mem_map.mp member
  exact found.exists_file tree (among path listed)

theorem Discovered.mem_places_iff (found : Discovered disk directory paths) (tree : disk.IsTree)
    (among : ∀ path ∈ removed, path ∈ paths) (listed : path ∈ paths) :
    disk.placeOf path ∈ placesOf disk removed ↔ path ∈ removed := by
  refine ⟨fun member => ?_, fun member => mem_map_of_mem member⟩
  obtain ⟨other, taken, same⟩ := mem_map.mp member
  exact found.eq_of_placeOf tree (among other taken) listed same ▸ taken

/-- Without some of the components, a search gives the others. -/
theorem Discovered.withoutFiles (found : Discovered disk directory paths) (tree : disk.IsTree)
    (among : ∀ path ∈ removed, path ∈ paths) :
    Discovered (disk.withoutFiles (placesOf disk removed)) directory
      (paths.filter fun path => path ∉ removed) := by
  have files := found.areFiles tree among
  have agree := agree_withoutFiles files (fun l _ => Set.notMem_empty l)
  refine ⟨agree.opensPath found.opens, fun names there => ?_, fun path => ?_,
    found.nodup.filter _, found.ascending.filter _⟩
  · rw [agree.placeOf_eq, node?_withoutFiles_directory_iff files] at there
    exact found.accepted names there
  · rw [mem_filter, found.mem_iff, agree.placeOf_eq, decide_eq_true_eq]
    constructor
    · rintro ⟨⟨component, names, content, rfl, there⟩, kept⟩
      refine ⟨component, names, content, rfl, ?_⟩
      rw [node?_withoutFiles files, if_neg, there]
      have valid := tree.isName_of_mem (by rw [there]; simp)
      rw [← placeOf_joinAll disk directory valid,
        found.mem_places_iff tree among ((found.mem_iff _).mpr ⟨component, names, content, rfl, there⟩)]
      exact kept
    · rintro ⟨component, names, content, rfl, there⟩
      rw [node?_withoutFiles files] at there
      split at there
      · simp at there
      · next elsewhere =>
        refine ⟨⟨component, names, content, rfl, there⟩, fun taken => elsewhere ?_⟩
        have valid := tree.isName_of_mem (by rw [there]; simp)
        rw [← placeOf_joinAll disk directory valid]
        exact mem_map_of_mem taken

theorem Placed.readText_eq (placed : Placed disk path) (free : disk.LinkFree) {other : Disk}
    (free' : other.LinkFree) {area : Set Location} (agree : Agree area disk other)
    (inside : disk.placeOf path ∈ area) : other.readText path = disk.readText path := by
  obtain ⟨base, name, named, -, opens, rfl⟩ := placed
  rw [placeOf_join disk base named] at inside
  have same : other.read (base.join ⟨name⟩) = disk.read (base.join ⟨name⟩) := by
    rw [read_join free opens named, read_join free' (agree.opensPath opens) named,
      agree.placeOf_eq, agree.inside _ inside]
  rw [readText, readText, same]

end Fewer

section Without

variable {options : Options} {answer : Path → Compiler.Artifact} {imports : ImportSet} {disk : Disk}
  {directory : Path} {paths removed : List Path}

theorem judge_withoutFiles (found : Discovered disk directory paths) (tree : disk.IsTree)
    (free : disk.LinkFree) (among : ∀ path ∈ removed, path ∈ paths) (listed : path ∈ paths)
    (kept : path ∉ removed) (mode : Mode) :
    check (disk.withoutFiles (placesOf disk removed)) path = check disk path ∧
      judge mode answer (disk.withoutFiles (placesOf disk removed)) path =
        judge mode answer disk path := by
  have files := found.areFiles tree among
  have elsewhere : ∀ l ∈ placesOf disk removed, l ∉ ({disk.placeOf path} : Set Location) := by
    rintro _ taken rfl
    exact kept ((found.mem_places_iff tree among listed).mp taken)
  have same := (found.placed tree listed).readText_eq free (free.withoutFiles files)
    (agree_withoutFiles files elsewhere) rfl
  have checked : check (disk.withoutFiles (placesOf disk removed)) path = check disk path := by
    rw [check, check, same]
  exact ⟨checked, by rw [judge, judge, checked]⟩

/-- The outputs of staged components are the same without some components. -/
theorem solo_withoutFiles (found : Discovered disk directory paths) (tree : disk.IsTree)
    (free : disk.LinkFree) (among : ∀ path ∈ removed, path ∈ paths) {staged : Staged}
    (placed : Placed disk staged.component.path) :
    (solo options imports disk staged).1 =
        (solo options imports (disk.withoutFiles (placesOf disk removed)) staged).1 ∧
      Agree (areaOf disk staged) (solo options imports disk staged).2
        (solo options imports (disk.withoutFiles (placesOf disk removed)) staged).2 := by
  have files := found.areFiles tree among
  have outside : ∀ l ∈ placesOf disk removed, l ∉ areaOf disk staged := by
    intro l taken
    obtain ⟨path, member, rfl⟩ := mem_map.mp taken
    exact not_mem_footprint (found.placed tree (among path member)).isSource _
  obtain ⟨same, agree, -⟩ := emit_local (outputs_emissions placed) (agree_withoutFiles files outside)
    free (free.withoutFiles files)
  exact ⟨same, agree⟩

/-- Components that fail before they are written can be taken away. -/
theorem stagedBy_withoutFiles (found : Discovered disk directory paths) (tree : disk.IsTree)
    (free : disk.LinkFree) (among : ∀ path ∈ removed, path ∈ paths) {mode : Mode}
    (failing : ∀ path ∈ removed, ∃ failure, judge mode answer disk path = .error failure) :
    stagedBy mode answer (disk.withoutFiles (placesOf disk removed))
        (paths.filter fun path => path ∉ removed) = stagedBy mode answer disk paths := by
  have same : ∀ path ∈ paths.filter (fun path => path ∉ removed),
      judge mode answer (disk.withoutFiles (placesOf disk removed)) path =
        judge mode answer disk path := by
    intro path member
    obtain ⟨listed, kept⟩ := mem_filter.mp member
    exact (judge_withoutFiles found tree free among listed (of_decide_eq_true kept) mode).2
  rw [stagedBy, split_congr same, stagedBy]
  refine split_filter_fst fun path _ taken => failing path ?_
  simpa using taken

theorem settle_withoutFiles (found : Discovered disk directory paths) (tree : disk.IsTree)
    (free : disk.LinkFree) (among : ∀ path ∈ removed, path ∈ paths) (listed : path ∈ paths)
    (kept : path ∉ removed) :
    settle options answer imports (disk.withoutFiles (placesOf disk removed)) path =
      settle options answer imports disk path := by
  have named := @judge_path disk options.mode answer path
  rw [settle, settle, (judge_withoutFiles found tree free among listed kept options.mode).2]
  cases judged : judge options.mode answer disk path with
  | error failure => rfl
  | ok staged =>
    rw [judged] at named
    have placed : Placed disk staged.component.path := named ▸ found.placed tree listed
    simp only [(solo_withoutFiles found tree free among placed).1]

/-- The report without some of the components that fail before they are written. -/
theorem reportOf_withoutFiles (found : Discovered disk directory paths) (tree : disk.IsTree)
    (free : disk.LinkFree) (among : ∀ path ∈ removed, path ∈ paths)
    (failing : ∀ path ∈ removed, ∃ failure, judge options.mode answer disk path = .error failure) :
    reportOf options answer (disk.withoutFiles (placesOf disk removed))
        (paths.filter fun path => path ∉ removed) =
      { reportOf options answer disk paths with
        components := (paths.filter fun path => path ∉ removed).length
        failures := (reportOf options answer disk paths).failures.filter
          fun failure => failure.path ∉ removed } := by
  have same : ∀ path ∈ paths.filter (fun path => path ∉ removed),
      settle options answer (importsOf (stagedBy options.mode answer disk paths))
          (disk.withoutFiles (placesOf disk removed)) path =
        settle options answer (importsOf (stagedBy options.mode answer disk paths)) disk path := by
    intro path member
    obtain ⟨listed, kept⟩ := mem_filter.mp member
    exact settle_withoutFiles found tree free among listed (of_decide_eq_true kept)
  have done : (split ((paths.filter fun path => path ∉ removed).map
      (settle options answer (importsOf (stagedBy options.mode answer disk paths)) disk))).1 =
      (split (paths.map
        (settle options answer (importsOf (stagedBy options.mode answer disk paths)) disk))).1 := by
    refine split_filter_fst fun path _ taken => ?_
    obtain ⟨failure, judged⟩ := failing path (by simpa using taken)
    exact ⟨failure, by rw [settle, judged]⟩
  simp only [reportOf, stagedBy_withoutFiles found tree free among failing, split_congr same, done,
    ComponentFailure.sort_filter (distinct_settle found tree)]
  congr 2
  exact split_filter_snd (fun _ _ => settle_path) (fun path => path ∉ removed) paths

/-- The disk after a pass without some of the components that are not staged. -/
theorem emitted_withoutFiles (found : Discovered disk directory paths) (tree : disk.IsTree)
    (free : disk.LinkFree) (among : ∀ path ∈ removed, path ∈ paths) {staged : List Staged}
    (apart : Apart disk staged) {after' : Disk}
    (emitted : Emitted options imports disk staged after)
    (emitted' : Emitted options imports (disk.withoutFiles (placesOf disk removed)) staged after') :
    after' = after.withoutFiles (placesOf disk removed) := by
  have files := found.areFiles tree among
  have outside : ∀ l ∈ placesOf disk removed, l ∉ areas disk staged := by
    rintro l taken ⟨s, -, inside⟩
    obtain ⟨path, member, rfl⟩ := mem_map.mp taken
    exact not_mem_footprint (found.placed tree (among path member)).isSource _ inside
  have files' : after.AreFiles (placesOf disk removed) := by
    intro l member
    rw [emitted.confined.outside l (outside l member)]
    exact files l member
  refine eq_of_node? (emitted'.confined.home.trans emitted.confined.home.symm) ?_ fun l => ?_
  · rw [emitted'.confined.root, (tree.withoutFiles files).root]
    have filtered := Dictionary.get?_filter after.nodes
      (fun l _ => !(placesOf disk removed).contains l) []
    rw [emitted.confined.root, tree.root] at filtered
    exact filtered.symm
  · rw [node?_withoutFiles files']
    by_cases inside : l ∈ areas disk staged
    · rw [if_neg fun member => outside l member inside]
      obtain ⟨s, member, inside⟩ := inside
      obtain ⟨-, agree⟩ := @solo_withoutFiles options imports disk directory paths removed found tree
        free among s (apart.placed s member)
      rw [(emitted'.agree s member).inside l inside, agree.inside l inside,
        (emitted.agree s member).inside l inside]
    · rw [emitted'.confined.outside l inside, node?_withoutFiles files,
        emitted.confined.outside l inside]

end Without

/-- A compiler that answers each template by a function of the path, unless the whole batch
fails. -/
structure AnswersByPath (compiler : Compiler) (answer : Path → Compiler.Artifact) : Prop where
  leaves : LeavesFiles compiler
  answers : ∀ batch disk compiled, (compiler.compile batch disk).result = .ok compiled →
    ∀ request ∈ batch.components, compiled.get? request.path = some (answer request.path)

/-- A failure before anything of the component is written. -/
def ComponentFailure.IsEarly (failure : ComponentFailure) : Prop :=
  ∀ path fault, failure.error ≠ .write path fault

section Pass

variable {options : Options} {compiler : Compiler} {answer : Path → Compiler.Artifact}
  {imports : ImportSet} {disk : Disk} {paths : List Path}

theorem answered_of_compiled (byPath : AnswersByPath compiler answer) {components : List Checked}
    {compiled : Compiler.Compiled}
    (compiles : (compiler.compile (batchOf components) disk).result = .ok compiled) :
    Answered compiler disk components answer :=
  ⟨compiled, compiles, fun _ member =>
    byPath.answers _ disk compiled compiles _ (mem_map_of_mem member)⟩

theorem batches_build (mode : options.mode = .release)
    (found : (discover disk options.directory).1 = .ok paths) :
    (build options compiler disk).batches = [batchOf (split (paths.map (check disk))).1] := by
  obtain ⟨log, whole⟩ : ∃ log, discover disk options.directory = (.ok paths, log) :=
    ⟨_, Prod.ext found rfl⟩
  simp only [build, whole, mode, buildCompiled]
  split
  · rfl
  · split <;> rfl

/-- An emission fails only by a write. -/
theorem isWrite_of_emit {emissions : List Emission} {e : ComponentError}
    (failed : (emit disk emissions).1 = .error e) : ∃ path fault, e = .write path fault := by
  induction emissions generalizing disk with
  | nil => simp [emit] at failed
  | cons emission rest ih =>
    cases emission with
    | remark message => exact ih failed
    | output path content =>
      rw [emit] at failed
      split at failed
      · exact ⟨path, _, (Except.error.inj failed).symm⟩
      · next after _ =>
        cases inner : (emit after rest).1 with
        | ok outcomes => simp [inner, Except.map] at failed
        | error e' =>
          simp only [inner, Except.map, Except.error.injEq] at failed
          rw [failed] at inner
          exact ih inner

theorem judge_of_isEarly (settled : settle options answer imports disk path = .error failure)
    (early : failure.IsEarly) : judge options.mode answer disk path = .error failure := by
  rw [settle] at settled
  cases judged : judge options.mode answer disk path with
  | error other => simpa [judged] using settled
  | ok staged =>
    rw [judged] at settled
    cases alone : (solo options imports disk staged).1 with
    | ok outcomes => simp [alone, Except.mapError] at settled
    | error e =>
      obtain ⟨output, fault, rfl⟩ := isWrite_of_emit alone
      simp only [alone, Except.mapError, Except.error.injEq] at settled
      exact absurd (congrArg ComponentFailure.error settled).symm (early output fault)

/-- A pass that fails as a whole changes nothing. -/
theorem disk_of_build_error (leaves : LeavesFiles compiler) {e : BuildError}
    (failed : (build options compiler disk).result = .error e) :
    (build options compiler disk).disk = disk := by
  cases found : (discover disk options.directory).1 with
  | error e' => exact (build_of_not_discovered found).2
  | ok paths =>
    rcases build_of_discovered leaves found with ⟨-, -, -, same⟩ | ⟨_, _, _, result, -⟩
    · exact same
    · rw [result] at failed
      simp at failed

theorem answered_of_build_ok (byPath : AnswersByPath compiler answer) {report : Report}
    (finished : (build options compiler disk).result = .ok report) :
    ∃ paths, (discover disk options.directory).1 = .ok paths ∧ (options.mode = .release →
      Answered compiler disk (split (paths.map (check disk))).1 answer) := by
  obtain ⟨paths, other, found, answered⟩ := exists_answered_of_build_ok byPath.leaves finished
  refine ⟨paths, found, fun mode => ?_⟩
  obtain ⟨compiled, compiles, -⟩ := answered mode
  exact answered_of_compiled byPath compiles

theorem map_path_failures (options : Options) (answer : Path → Compiler.Artifact) (disk : Disk)
    (paths : List Path) :
    ((reportOf options answer disk paths).failures.map ComponentFailure.path).Perm
      (paths.filter fun path => (settle options answer
        (importsOf (stagedBy options.mode answer disk paths)) disk path).toOption.isNone) := by
  rw [← map_split_snd (f := settle options answer _ disk) (fun _ _ => settle_path)]
  exact (ComponentFailure.sort_perm _).map _

/-- A failure in the report is the end of its component. -/
theorem settle_of_mem_failures (member : failure ∈ (reportOf options answer disk paths).failures) :
    failure.path ∈ paths ∧ settle options answer
      (importsOf (stagedBy options.mode answer disk paths)) disk failure.path = .error failure := by
  have among := (ComponentFailure.sort_perm _).mem_iff.mp member
  obtain ⟨path, listed, settled⟩ := mem_map.mp (mem_split_snd.mp among)
  have named := settle_path settled
  rw [named]
  exact ⟨listed, settled⟩

/-- A component is listed once among the failures, or it has been emitted as a whole. -/
theorem listed_or_emitted (free : disk.LinkFree) {directory : Path}
    (found : Discovered disk directory paths)
    (apart : Apart disk (stagedBy options.mode answer disk paths))
    (emitted : Emitted options (importsOf (stagedBy options.mode answer disk paths)) disk
      (stagedBy options.mode answer disk paths) after) (listed : path ∈ paths) :
    ((reportOf options answer disk paths).failures.map ComponentFailure.path).count path = 1 ∨
      path ∉ (reportOf options answer disk paths).failures.map ComponentFailure.path ∧
        ∃ staged, judge options.mode answer disk path = .ok staged ∧
          ∀ output content, .output output content ∈ emissions options
              (importsOf (stagedBy options.mode answer disk paths)) staged →
            after.read output = .ok (Text.toBytes content) := by
  have perm := map_path_failures options answer disk paths
  cases settled : settle options answer (importsOf (stagedBy options.mode answer disk paths)) disk
      path with
  | error failure =>
    left
    rw [perm.count_eq, count_eq_one_of_mem (found.nodup.filter _)]
    exact mem_filter.mpr ⟨listed, by rw [settled]; rfl⟩
  | ok outcomes =>
    right
    refine ⟨fun member => ?_, ?_⟩
    · have failed := (mem_filter.mp (perm.mem_iff.mp member)).2
      rw [settled] at failed
      simp [Except.toOption] at failed
    · rw [settle] at settled
      cases judged : judge options.mode answer disk path with
      | error failure => simp [judged] at settled
      | ok staged =>
        refine ⟨staged, rfl, fun output content member => ?_⟩
        have among : staged ∈ stagedBy options.mode answer disk paths :=
          mem_split_fst.mpr (judged ▸ mem_map_of_mem listed)
        rw [judged] at settled
        cases alone : (solo options (importsOf (stagedBy options.mode answer disk paths)) disk
            staged).1 with
        | error e => simp [alone, Except.mapError] at settled
        | ok outcomes' =>
          exact (emitted.outputs apart free among member).2 outcomes' alone

/-- The outputs of a component that fails early are not touched. -/
theorem output_of_isEarly {directory : Path} (found : Discovered disk directory paths)
    (tree : disk.IsTree)
    (emitted : Emitted options (importsOf (stagedBy options.mode answer disk paths)) disk
      (stagedBy options.mode answer disk paths) after)
    (member : failure ∈ (reportOf options answer disk paths).failures) (early : failure.IsEarly)
    {extension : Text} (he : extension ∈ extensions) :
    after.node? (disk.placeOf (Source.outputPath failure.path extension)) =
      disk.node? (disk.placeOf (Source.outputPath failure.path extension)) := by
  obtain ⟨listed, settled⟩ := settle_of_mem_failures member
  have judged := judge_of_isEarly settled early
  have placed := found.placed tree listed
  obtain ⟨base, name, path, holds⟩ := placed.holds_outputPath he
  rw [path, placeOf_join disk base holds.isName]
  refine emitted.confined.outside _ fun ⟨s, among, inside⟩ => ?_
  -- A staged component lies elsewhere, and so do its outputs.
  obtain ⟨other, listed', judged'⟩ := mem_map.mp (mem_split_fst.mp among)
  have named := @judge_path disk options.mode answer other
  rw [judged'] at named
  have placed' : Placed disk s.component.path := named ▸ found.placed tree listed'
  refine Set.disjoint_left.mp (disjoint_footprint placed.isSource placed'.isSource ?_) holds.output
    inside
  intro same
  rw [named] at same
  rw [found.eq_of_placeOf tree listed listed' same, judged'] at judged
  simp at judged

end Pass

/-- A compiler that answers every template by the parts of its path. -/
def answering (answer : List Part → Compiler.Artifact) : Compiler where
  name := "answering"
  compile batch disk :=
    { result := .ok ⟨batch.components.map fun request => (request.path, answer request.path.parts)⟩
      disk := disk }

theorem answersByPath_answering (answer : List Part → Compiler.Artifact) :
    AnswersByPath (answering answer) fun path => answer path.parts where
  leaves _ _ := rfl
  answers batch disk compiled compiles := by
    obtain rfl := Except.ok.inj compiles
    intro request member
    rw [Compiler.Compiled.get?, List.find?_map, Option.map_map, Option.map_eq_some_iff]
    have some : (batch.components.find? fun r => r.path.equivalent request.path).isSome = true :=
      List.find?_isSome.mpr ⟨request, member, by simp [equivalent]⟩
    obtain ⟨first, found⟩ := Option.isSome_iff_exists.mp some
    have same : first.path.parts = request.path.parts := by
      simpa [equivalent] using List.find?_some found
    exact ⟨first, found, congrArg answer same⟩

/-- A component with a template and one without. -/
def half : Disk where
  nodes := .ofList [
    (["vue"], .directory),
    (["vue", "a.vue"], .file (Text.toBytes "<template><b>1</b></template>")),
    (["vue", "b.vue"], .file .empty)]
  home := []

/-- The templates of both components are compiled. -/
def halfOptions : Options := { directory := .ofString "vue", mode := .release }

theorem discover_half : (discover half halfOptions.directory).1 =
    .ok [.ofString "vue/a.vue", .ofString "vue/b.vue"] := by cbv

theorem check_half : check half (.ofString "vue/b.vue") =
    .error ⟨.ofString "vue/b.vue", .sections (.requiredCount .template 0)⟩ := by cbv

end Build

end ComponentPack
