import ComponentPack.Proofs.Build.Emission
import ComponentPack.Proofs.Render.Interference

/-!
A pass up to its writing. Every component is judged by itself: it fails when it is read or when its
template is compiled, or it is staged. A pass that is not ended by its compiler emits the staged
components and reports the others.
-/

set_option autoImplicit false

namespace ComponentPack.Build

open Component Files Disk ComponentPack.Path Render List

section Split

variable {α ε : Type} {results : List (Except ε α)}

theorem mem_split_fst {a : α} : a ∈ (split results).1 ↔ .ok a ∈ results := by
  induction results with
  | nil => simp [split]
  | cons result results ih => cases result <;> simp [split, ih]

theorem mem_split_snd {e : ε} : e ∈ (split results).2 ↔ .error e ∈ results := by
  induction results with
  | nil => simp [split]
  | cons result results ih => cases result <;> simp [split, ih]

/-- What holds between the items holds between what comes of them. -/
theorem pairwise_split {β : Type} {f : β → Except ε α} {origin : α → β}
    (known : ∀ item a, f item = .ok a → origin a = item) {R : β → β → Prop} {items : List β}
    (h : items.Pairwise R) : (split (items.map f)).1.Pairwise fun a b => R (origin a) (origin b) := by
  induction items with
  | nil => exact .nil
  | cons item items ih =>
    rw [pairwise_cons] at h
    rw [map_cons]
    cases result : f item with
    | error e => exact ih h.2
    | ok a =>
      refine pairwise_cons.mpr ⟨fun b member => ?_, ih h.2⟩
      obtain ⟨other, listed, result'⟩ := mem_map.mp (mem_split_fst.mp member)
      rw [known _ _ result, known _ _ result']
      exact h.1 other listed

end Split

theorem check_path {disk : Disk} {path : Path} :
    match check disk path with
    | .ok component => component.path = path
    | .error failure => failure.path = path := by
  rw [check]
  cases disk.readText path with
  | error e => rfl
  | ok content =>
    simp only [checkText]
    cases Sections.extract content with
    | error e => rfl
    | ok sections =>
      simp only
      cases sections.members with
      | error e => rfl
      | ok members =>
        simp only
        cases Localization.Table.parse sections.localization <;> rfl

/-- What becomes of a component before anything is written, given the answers of a compiler. -/
def judge (mode : Mode) (answer : Path → Compiler.Artifact) (disk : Disk) (path : Path) :
    Except ComponentFailure Staged :=
  match check disk path with
  | .error failure => .error failure
  | .ok component =>
    match mode with
    | .debug => .ok ⟨component, none⟩
    | .release => stage component (answer path)

/-- The components that are left to be emitted. -/
def stagedBy (mode : Mode) (answer : Path → Compiler.Artifact) (disk : Disk) (paths : List Path) :
    List Staged :=
  (split (paths.map (judge mode answer disk))).1

/-- A compiler that leaves the disk as it is. -/
def LeavesFiles (compiler : Compiler) : Prop :=
  ∀ batch disk, (compiler.compile batch disk).disk = disk

/-- The staged components of a pass and the failures so far. -/
def prepare (options : Options) (compiler : Compiler)
    (results : List (Except ComponentFailure Checked)) (disk : Disk) :
    Except BuildError (List ComponentFailure × List Staged) :=
  let (components, failures) := split results
  match options.mode with
  | .debug => .ok (failures, components.map fun c => ⟨c, none⟩)
  | .release =>
    match (compiler.compile (batchOf components) disk).result with
    | .error e => .error (.compiler e)
    | .ok compiled =>
      match stageAll compiled components with
      | (_, some e) => .error (.compiler e)
      | (results, none) => .ok (failures ++ (split results).2, (split results).1)

/-- The imports of all render code. -/
def importsOf (staged : List Staged) : ImportSet :=
  .ofArtifacts (staged.filterMap Staged.artifact)

/-- The report about a pass whose staged components have been emitted. -/
def summary (count : Nat) (failures : List ComponentFailure)
    (results : List (Except ComponentFailure (List WriteOutcome))) : Report where
  components := count
  written := (split results).1.flatten.count .written
  unchanged := (split results).1.flatten.count .unchanged
  failures := ComponentFailure.sort (failures ++ (split results).2)

section Pass

variable {options : Options} {compiler : Compiler} {disk : Disk} {paths : List Path}

theorem build_of_not_discovered {e : BuildError}
    (missing : (discover disk options.directory).1 = .error e) :
    (build options compiler disk).result = .error e ∧ (build options compiler disk).disk = disk := by
  rw [build]
  cases found : discover disk options.directory with
  | mk result log =>
    rw [found] at missing
    simp only at missing
    rw [missing]
    exact ⟨rfl, rfl⟩

/-- A pass over the components that have been found. -/
theorem build_of_discovered (leaves : LeavesFiles compiler)
    (found : (discover disk options.directory).1 = .ok paths) :
    (∃ e, prepare options compiler (paths.map (check disk)) disk = .error e ∧
        (build options compiler disk).result = .error e ∧
        (build options compiler disk).disk = disk) ∨
      ∃ failures staged,
        prepare options compiler (paths.map (check disk)) disk = .ok (failures, staged) ∧
        (build options compiler disk).result = .ok (summary paths.length failures
          (emitAll options (importsOf staged) disk staged).1) ∧
        (build options compiler disk).disk =
          (emitAll options (importsOf staged) disk staged).2.1 := by
  obtain ⟨log, discovery⟩ : ∃ log, discover disk options.directory = (.ok paths, log) :=
    ⟨_, Prod.ext found rfl⟩
  simp only [build, prepare, discovery]
  generalize split (paths.map (check disk)) = parts
  obtain ⟨components, failures⟩ := parts
  cases mode : options.mode with
  | debug => exact .inr ⟨_, _, rfl, rfl, rfl⟩
  | release =>
    simp only [buildCompiled, leaves _ disk]
    cases (compiler.compile (batchOf components) disk).result with
    | error e => exact .inl ⟨_, rfl, rfl, rfl⟩
    | ok compiled =>
      simp only
      generalize stageAll compiled components = staging
      obtain ⟨results, error⟩ := staging
      cases error with
      | some e => exact .inl ⟨_, rfl, rfl, rfl⟩
      | none => exact .inr ⟨_, _, rfl, rfl, rfl⟩

/-- The compiler answers the templates of components by a function of their paths. -/
def Answered (compiler : Compiler) (disk : Disk) (components : List Checked)
    (answer : Path → Compiler.Artifact) : Prop :=
  ∃ compiled, (compiler.compile (batchOf components) disk).result = .ok compiled ∧
    ∀ c ∈ components, compiled.get? c.path = some (answer c.path)

theorem stageAll_of_answers {compiled : Compiler.Compiled} {components : List Checked}
    {answer : Path → Compiler.Artifact}
    (answers : ∀ c ∈ components, compiled.get? c.path = some (answer c.path)) :
    stageAll compiled components = (components.map fun c => stage c (answer c.path), none) := by
  induction components with
  | nil => rfl
  | cons c components ih =>
    rw [forall_mem_cons] at answers
    rw [stageAll, answers.1, ih answers.2]
    rfl

theorem answers_of_stageAll {compiled : Compiler.Compiled} {components : List Checked}
    (complete : (stageAll compiled components).2 = none) :
    ∀ c ∈ components, ∃ artifact, compiled.get? c.path = some artifact := by
  induction components with
  | nil => simp
  | cons c components ih =>
    rw [stageAll] at complete
    split at complete
    · simp at complete
    · next artifact found => exact forall_mem_cons.mpr ⟨⟨artifact, found⟩, ih complete⟩

theorem split_judge_debug (answer : Path → Compiler.Artifact) (disk : Disk) (paths : List Path) :
    split (paths.map (judge .debug answer disk)) =
      ((split (paths.map (check disk))).1.map fun c => ⟨c, none⟩,
        (split (paths.map (check disk))).2) := by
  induction paths with
  | nil => rfl
  | cons path paths ih =>
    rw [map_cons, map_cons, judge]
    cases check disk path with
    | error failure => simp [split, ih]
    | ok component => simp [split, ih]

/-- Components fail when they are read, or later when they are staged. -/
theorem split_judge_release (answer : Path → Compiler.Artifact) (disk : Disk)
    (paths : List Path) :
    let components := (split (paths.map (check disk))).1
    let later := split (components.map fun c => stage c (answer c.path))
    (split (paths.map (judge .release answer disk))).1 = later.1 ∧
      ((split (paths.map (check disk))).2 ++ later.2).Perm
        (split (paths.map (judge .release answer disk))).2 := by
  induction paths with
  | nil => exact ⟨rfl, .refl _⟩
  | cons path paths ih =>
    have named := @check_path disk path
    rw [map_cons, map_cons, judge]
    cases checked : check disk path with
    | error failure =>
      simp only [split]
      exact ⟨ih.1, ih.2.cons failure⟩
    | ok component =>
      rw [checked] at named
      simp only [split, map_cons, named]
      cases stage component (answer path) with
      | ok staged => exact ⟨congrArg (staged :: ·) ih.1, ih.2⟩
      | error failure => exact ⟨ih.1, perm_middle.trans (ih.2.cons failure)⟩

/-- With answers for all templates, the components are staged or fail as they are judged. -/
theorem prepare_of_answered {answer : Path → Compiler.Artifact}
    (answered : options.mode = .release →
      Answered compiler disk (split (paths.map (check disk))).1 answer) :
    ∃ failures, prepare options compiler (paths.map (check disk)) disk =
        .ok (failures, stagedBy options.mode answer disk paths) ∧
      failures.Perm (split (paths.map (judge options.mode answer disk))).2 := by
  rw [prepare, stagedBy]
  cases mode : options.mode with
  | debug =>
    rw [split_judge_debug]
    exact ⟨_, rfl, .refl _⟩
  | release =>
    obtain ⟨compiled, compiles, answers⟩ := answered mode
    obtain ⟨staged, failed⟩ := split_judge_release answer disk paths
    simp only [compiles, stageAll_of_answers answers, staged]
    exact ⟨_, rfl, failed⟩

theorem exists_answered {prepared : List ComponentFailure × List Staged}
    (ready : prepare options compiler (paths.map (check disk)) disk = .ok prepared) :
    ∃ answer, options.mode = .release →
      Answered compiler disk (split (paths.map (check disk))).1 answer := by
  rw [prepare] at ready
  cases mode : options.mode with
  | debug => exact ⟨fun _ => .ok [], by simp⟩
  | release =>
    simp only [mode] at ready
    split at ready
    · simp at ready
    · next compiled compiles =>
      split at ready
      · simp at ready
      · next complete =>
        refine ⟨fun path => (compiled.get? path).getD (.ok []), fun _ => ⟨compiled, compiles, ?_⟩⟩
        intro c member
        obtain ⟨artifact, found⟩ := answers_of_stageAll (by rw [complete]) c member
        simp [found]

/-- A pass that succeeds has found its components, and has an answer for each template. -/
theorem exists_answered_of_build_ok (leaves : LeavesFiles compiler) {report : Report}
    (finished : (build options compiler disk).result = .ok report) :
    ∃ paths answer, (discover disk options.directory).1 = .ok paths ∧ (options.mode = .release →
      Answered compiler disk (split (paths.map (check disk))).1 answer) := by
  cases found : (discover disk options.directory).1 with
  | error e =>
    rw [(build_of_not_discovered found).1] at finished
    simp at finished
  | ok paths =>
    rcases build_of_discovered leaves found with ⟨e, -, result, -⟩ | ⟨_, _, ready, -, -⟩
    · rw [result] at finished
      simp at finished
    · obtain ⟨answer, answered⟩ := exists_answered ready
      exact ⟨paths, answer, rfl, answered⟩

theorem judge_path {mode : Mode} {answer : Path → Compiler.Artifact} {path : Path} :
    match judge mode answer disk path with
    | .ok staged => staged.component.path = path
    | .error failure => failure.path = path := by
  have named := @check_path disk path
  rw [judge]
  cases checked : check disk path with
  | error failure => simpa [checked] using named
  | ok component =>
    rw [checked] at named
    cases mode with
    | debug => exact named
    | release =>
      simp only [stage]
      cases answer path with
      | error reason => exact named
      | ok code =>
        simp only
        cases Artifact.parse code <;> exact named

/-- The imports of a pass are those of all render code that has been read. -/
theorem contains_importsOf {staged : List Staged} {name : Text} :
    (importsOf staged).contains name = true ↔
      ∃ s ∈ staged, ∃ artifact, s.artifact = some artifact ∧ name ∈ artifact.importedNames := by
  rw [importsOf, ImportSet.contains_ofArtifacts]
  simp only [mem_filterMap]
  constructor
  · rintro ⟨artifact, ⟨s, member, known⟩, listed⟩
    exact ⟨s, member, artifact, known, listed⟩
  · rintro ⟨s, member, artifact, known, listed⟩
    exact ⟨artifact, ⟨s, member, known⟩, listed⟩

/-- The staged components of a pass lie at different places. -/
theorem apart_of_discovered {directory : Path} (found : Discovered disk directory paths)
    (tree : disk.IsTree) (mode : Mode) (answer : Path → Compiler.Artifact) :
    Apart disk (stagedBy mode answer disk paths) where
  placed s member := by
    obtain ⟨path, listed, judged⟩ := mem_map.mp (mem_split_fst.mp member)
    have named := @judge_path disk mode answer path
    rw [judged] at named
    exact named ▸ found.placed tree listed
  different := by
    refine pairwise_split (fun path s judged => ?_)
      (found.nodup.imp_of_mem fun ha hb other same => other (found.eq_of_placeOf tree ha hb same))
    have named := @judge_path disk mode answer path
    rwa [judged] at named

end Pass

end ComponentPack.Build
