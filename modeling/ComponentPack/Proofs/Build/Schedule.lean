import ComponentPack.Proofs.Build.Staging
import Mathlib

/-!
Passes with many workers. Components are read in any order; when all have been read, templates are
compiled and the imports of the whole pass are known; then components are emitted, and the steps of
different components come in any order. Every such pass ends, and it ends as the pass that takes
the components one after the other.
-/

set_option autoImplicit false

namespace ComponentPack.Build

open Component Files Disk ComponentPack.Path Render Relation List

/-- A moment of a pass. -/
inductive State where
  /-- Components are read; those that have been read have a result. -/
  | reading (slots : List (Path × Option (Except ComponentFailure Checked))) (disk : Disk)
  /-- Components are emitted. -/
  | emitting (count : Nat) (failures : List ComponentFailure) (workers : List (Staged × Progress))
    (disk : Disk)
  | ended (result : Except BuildError Report) (disk : Disk)

namespace State

/-- The beginning of a pass, when the components have been found. -/
def initial (options : Options) (disk : Disk) : State :=
  match discover disk options.directory with
  | (.error e, _) => ended (.error e) disk
  | (.ok paths, _) => reading (paths.map fun path => (path, none)) disk

/-- The disk after the templates have been compiled. -/
def compiledDisk (options : Options) (compiler : Compiler)
    (results : List (Except ComponentFailure Checked)) (disk : Disk) : Disk :=
  match options.mode with
  | .debug => disk
  | .release => (compiler.compile (batchOf (split results).1) disk).disk

/-- The workers of staged components before their first steps. -/
def workersOf (options : Options) (staged : List Staged) : List (Staged × Progress) :=
  staged.map fun s => (s, .start (emissions options (importsOf staged) s))

/-- What follows when all components have been read. -/
def staged (options : Options) (compiler : Compiler)
    (results : List (Except ComponentFailure Checked)) (disk : Disk) : State :=
  match prepare options compiler results disk with
  | .error e => ended (.error e) (compiledDisk options compiler results disk)
  | .ok (failures, staged) =>
    emitting results.length failures (workersOf options staged)
      (compiledDisk options compiler results disk)

end State

/-- One step of a pass: a component is read, one worker goes on, or all have come to the end of
a phase. -/
inductive Step (options : Options) (compiler : Compiler) : State → State → Prop
  | read (before after : List (Path × Option (Except ComponentFailure Checked))) (path : Path)
      (disk : Disk) :
    Step options compiler (.reading (before ++ (path, none) :: after) disk)
      (.reading (before ++ (path, some (check disk path)) :: after) disk)
  | stage (slots : List (Path × Option (Except ComponentFailure Checked)))
      (results : List (Except ComponentFailure Checked)) (disk : Disk)
      (full : slots.map Prod.snd = results.map some) :
    Step options compiler (.reading slots disk) (.staged options compiler results disk)
  | emit (count : Nat) (failures : List ComponentFailure)
      (before after : List (Staged × Progress)) (staged : Staged) (progress next : Progress)
      (disk disk' : Disk) (stepped : progress.step disk = some (next, disk')) :
    Step options compiler
      (.emitting count failures (before ++ (staged, progress) :: after) disk)
      (.emitting count failures (before ++ (staged, next) :: after) disk')
  | finish (count : Nat) (failures : List ComponentFailure)
      (results : List (Staged × Except ComponentError (List WriteOutcome))) (disk : Disk) :
    Step options compiler
      (.emitting count failures (results.map fun r => (r.1, .ended r.2)) disk)
      (.ended (.ok (summary count failures (results.map fun r =>
        r.2.mapError (ComponentFailure.mk r.1.component.path)))) disk)

namespace State

/-- The phases that are left, and the steps of this one. -/
def work : State → Nat × Nat
  | reading slots _ => (2, slots.countP fun slot => slot.2.isNone)
  | emitting _ _ workers _ => (1, (workers.map fun worker => worker.2.work).sum)
  | ended _ _ => (0, 0)

end State

section Runs

variable {options : Options} {compiler : Compiler}

theorem work_decreases {before after : State} (step : Step options compiler before after) :
    Prod.Lex (· < ·) (· < ·) after.work before.work := by
  cases step with
  | read front back path disk =>
    refine .right 2 ?_
    simp [countP_append]
  | stage slots results disk full =>
    rw [State.staged]
    split
    · exact .left _ _ (by decide)
    · exact .left _ _ (by decide)
  | emit count failures front back staged progress next disk disk' stepped =>
    have less := Progress.work_lt_of_step stepped
    refine .right 1 ?_
    simp only [map_append, map_cons, sum_append, sum_cons]
    omega
  | finish count failures results disk => exact .left _ _ (by decide)

theorem wellFounded_step (options : Options) (compiler : Compiler) :
    WellFounded fun after before => Step options compiler before after := by
  have order : WellFounded (Prod.Lex (· < ·) (· < ·) : Nat × Nat → Nat × Nat → Prop) :=
    (Prod.lex Nat.lt_wfRel Nat.lt_wfRel).wf
  exact Subrelation.wf (fun {_ _} step => work_decreases step) (InvImage.wf State.work order)

theorem exists_step_or_ended (state : State) :
    (∃ next, Step options compiler state next) ∨ ∃ result disk, state = .ended result disk := by
  cases state with
  | ended result disk => exact .inr ⟨result, disk, rfl⟩
  | reading slots disk =>
    left
    by_cases empty : ∃ slot ∈ slots, slot.2 = none
    · obtain ⟨⟨path, result⟩, member, none⟩ := empty
      obtain ⟨before, after, rfl⟩ := append_of_mem member
      simp only at none
      subst none
      exact ⟨_, .read before after path disk⟩
    · have full : slots.map Prod.snd ∈ Set.range (List.map some) := by
        rw [Set.range_list_map]
        intro slot member
        obtain ⟨whole, listed, rfl⟩ := mem_map.mp member
        exact Option.ne_none_iff_exists.mp fun none => empty ⟨whole, listed, none⟩
      obtain ⟨results, same⟩ := full
      exact ⟨_, .stage slots results disk same.symm⟩
  | emitting count failures workers disk =>
    left
    by_cases busy : ∃ worker ∈ workers, ∀ result, worker.2 ≠ .ended result
    · obtain ⟨⟨staged, progress⟩, member, working⟩ := busy
      obtain ⟨before, after, rfl⟩ := append_of_mem member
      cases stepped : progress.step disk with
      | none =>
        obtain ⟨result, same⟩ := Progress.step_eq_none_iff.mp stepped
        exact absurd same (working result)
      | some next => exact ⟨_, .emit count failures before after staged progress _ disk _ stepped⟩
    · have idle : workers ∈ Set.range (List.map fun
          (r : Staged × Except ComponentError (List WriteOutcome)) => (r.1, Progress.ended r.2)) := by
        rw [Set.range_list_map]
        intro worker member
        by_contra working
        exact busy ⟨worker, member, fun result same =>
          working ⟨(worker.1, result), Prod.ext rfl same.symm⟩⟩
      obtain ⟨results, rfl⟩ := idle
      exact ⟨_, .finish count failures results disk⟩

/-- Every state can be brought to an end. -/
theorem exists_ended (state : State) :
    ∃ result disk, ReflTransGen (Step options compiler) state (.ended result disk) := by
  induction state using (wellFounded_step options compiler).induction with
  | _ state ih =>
    rcases exists_step_or_ended state with ⟨next, step⟩ | ⟨result, disk, rfl⟩
    · obtain ⟨result, disk, run⟩ := ih next step
      exact ⟨result, disk, .head step run⟩
    · exact ⟨result, disk, .refl⟩

end Runs

/-- Each worker is where it would be on a disk of its own, and has written nothing outside of its
area. -/
structure SideBySide (options : Options) (imports : ImportSet) (disk : Disk)
    (workers : List (Staged × Progress)) (current : Disk) : Prop where
  confined : Confined (areas disk (workers.map Prod.fst)) disk current
  alone : ∀ worker ∈ workers, ∃ own : Disk, own.LinkFree ∧
    worker.2.Within (areaOf disk worker.1) own ∧ Agree (areaOf disk worker.1) own current ∧
    worker.2.complete own = solo options imports disk worker.1

section Workers

variable {options : Options} {imports : ImportSet} {disk current : Disk}

theorem sideBySide_start {staged : List Staged} (apart : Apart disk staged)
    (free : disk.LinkFree) :
    SideBySide options imports disk
      (staged.map fun s => (s, .start (emissions options imports s))) disk where
  confined := .refl _ disk
  alone := by
    intro worker member
    obtain ⟨s, listed, rfl⟩ := mem_map.mp member
    exact ⟨disk, free, Progress.within_start (outputs_emissions (apart.placed s listed)),
      .refl _ disk, Progress.complete_start disk _⟩

/-- A step of one worker leaves the others where they are. -/
theorem SideBySide.step {before after : List (Staged × Progress)} {staged : Staged}
    {progress next : Progress} {current' : Disk}
    (h : SideBySide options imports disk (before ++ (staged, progress) :: after) current)
    (apart : Apart disk ((before ++ (staged, progress) :: after).map Prod.fst))
    (free : disk.LinkFree) (stepped : progress.step current = some (next, current')) :
    SideBySide options imports disk (before ++ (staged, next) :: after) current' := by
  have free' := h.confined.free free
  obtain ⟨own, ownFree, within, agree, complete⟩ := h.alone (staged, progress) (by simp)
  obtain ⟨own', one, agree', confined, within'⟩ :=
    Progress.step_local within agree ownFree free' stepped
  obtain ⟨_, two, -, changed, -⟩ :=
    Progress.step_local (within.transfer agree) (.refl _ current) free' free' stepped
  rw [stepped, Option.some.injEq, Prod.mk.injEq] at two
  rw [← two.2] at changed
  have same : (before ++ (staged, next) :: after).map Prod.fst =
      (before ++ (staged, progress) :: after).map Prod.fst := by simp
  refine ⟨?_, fun worker member => ?_⟩
  · rw [same]
    exact h.confined.trans (changed.mono fun l inside => ⟨staged, by simp, inside⟩)
  · have others : ∀ worker ∈ before ++ after,
        Disjoint (areaOf disk staged) (areaOf disk worker.1) := by
      intro worker member
      have pairs := apart.disjoint
      rw [map_append, map_cons, pairwise_append, pairwise_cons] at pairs
      obtain ⟨-, ⟨later, -⟩, earlier⟩ := pairs
      rcases mem_append.mp member with member | member
      · exact (earlier _ (mem_map_of_mem member) _ mem_cons_self).symm
      · exact later _ (mem_map_of_mem member)
    rcases mem_append.mp member with member | member
    · obtain ⟨own, ownFree, within, agree, complete⟩ := h.alone worker (by simp [member])
      exact ⟨own, ownFree, within,
        agree.trans (changed.agree (others worker (by simp [member]))), complete⟩
    · rcases mem_cons.mp member with rfl | member
      · exact ⟨own', confined.free ownFree, within', agree',
          (Progress.complete_of_step one).trans complete⟩
      · obtain ⟨own, ownFree, within, agree, complete⟩ := h.alone worker (by simp [member])
        exact ⟨own, ownFree, within,
          agree.trans (changed.agree (others worker (by simp [member]))), complete⟩

/-- Workers that have ended leave what comes of emitting one component after the other. -/
theorem SideBySide.finish {results : List (Staged × Except ComponentError (List WriteOutcome))}
    (h : SideBySide options imports disk (results.map fun r => (r.1, .ended r.2)) current)
    (apart : Apart disk (results.map Prod.fst)) (free : disk.LinkFree) :
    results.map (fun r => r.2.mapError (ComponentFailure.mk r.1.component.path)) =
        (emitAll options imports disk (results.map Prod.fst)).1 ∧
      current = (emitAll options imports disk (results.map Prod.fst)).2.1 := by
  have ends : ∀ r ∈ results, r.2 = (solo options imports disk r.1).1 ∧
      Agree (areaOf disk r.1) (solo options imports disk r.1).2 current := by
    intro r member
    obtain ⟨own, -, -, agree, complete⟩ := h.alone (r.1, .ended r.2)
      (mem_map_of_mem (f := fun r => (r.1, Progress.ended r.2)) member)
    rw [← complete]
    exact ⟨rfl, agree⟩
  obtain ⟨same, -, -⟩ := @emitAll_spec disk options imports _ apart free disk free
    fun s _ => .refl _ disk
  refine ⟨?_, ?_⟩
  · rw [same, List.map_map]
    exact List.map_congr_left fun r member => by rw [(ends r member).1]; rfl
  · refine Emitted.unique ⟨?_, ?_⟩ (emitted_emitAll apart free)
    · have confined := h.confined
      rwa [List.map_map] at confined
    · intro s member
      obtain ⟨r, listed, rfl⟩ := mem_map.mp member
      exact (ends r listed).2

end Workers

/-- What is known of a state that a pass can reach. -/
def Sound (options : Options) (compiler : Compiler) (disk : Disk) : State → Prop
  | .reading slots current =>
    current = disk ∧ (discover disk options.directory).1 = .ok (slots.map Prod.fst) ∧
      ∀ slot ∈ slots, slot.2 = none ∨ slot.2 = some (check disk slot.1)
  | .emitting count failures workers current =>
    ∃ paths, (discover disk options.directory).1 = .ok paths ∧ count = paths.length ∧
      prepare options compiler (paths.map (check disk)) disk =
        .ok (failures, workers.map Prod.fst) ∧
      SideBySide options (importsOf (workers.map Prod.fst)) disk workers current
  | .ended result current =>
    result = (build options compiler disk).result ∧ current = (build options compiler disk).disk

section Pass

variable {options : Options} {compiler : Compiler} {disk : Disk}

theorem initial_of_not_discovered {e : BuildError}
    (missing : (discover disk options.directory).1 = .error e) :
    State.initial options disk = .ended (.error e) disk := by
  have whole : discover disk options.directory = (.error e, _) := Prod.ext missing rfl
  rw [State.initial, whole]

theorem initial_of_discovered {paths : List Path}
    (found : (discover disk options.directory).1 = .ok paths) :
    State.initial options disk = .reading (paths.map fun path => (path, none)) disk := by
  have whole : discover disk options.directory = (.ok paths, _) := Prod.ext found rfl
  rw [State.initial, whole]

theorem sound_initial (options : Options) (compiler : Compiler) (disk : Disk) :
    Sound options compiler disk (.initial options disk) := by
  cases found : (discover disk options.directory).1 with
  | error e =>
    obtain ⟨result, same⟩ := @build_of_not_discovered options compiler disk e found
    rw [initial_of_not_discovered found]
    exact ⟨result.symm, same.symm⟩
  | ok paths =>
    rw [initial_of_discovered found]
    refine ⟨rfl, ?_, ?_⟩
    · rw [found, List.map_map]
      simp [Function.comp_def]
    · intro slot member
      obtain ⟨path, -, rfl⟩ := mem_map.mp member
      exact .inl rfl

/-- The staged components of a pass lie apart. -/
theorem apart_of_prepare {paths : List Path} {failures : List ComponentFailure}
    {staged : List Staged} (tree : disk.IsTree) (free : disk.LinkFree)
    (found : (discover disk options.directory).1 = .ok paths)
    (ready : prepare options compiler (paths.map (check disk)) disk = .ok (failures, staged)) :
    Apart disk staged := by
  obtain ⟨answer, answered⟩ := exists_answered ready
  obtain ⟨failures', ready', -⟩ := prepare_of_answered answered
  rw [ready, Except.ok.injEq, Prod.mk.injEq] at ready'
  rw [ready'.2]
  exact apart_of_discovered ((discoverBy_eq_ok_iff tree free (.namesIn disk)).mp found) tree _ _

theorem sound_staged {paths : List Path} (tree : disk.IsTree) (free : disk.LinkFree)
    (leaves : LeavesFiles compiler) (found : (discover disk options.directory).1 = .ok paths) :
    Sound options compiler disk (.staged options compiler (paths.map (check disk)) disk) := by
  have same : State.compiledDisk options compiler (paths.map (check disk)) disk = disk := by
    rw [State.compiledDisk]
    split
    · rfl
    · exact leaves _ disk
  rw [State.staged, same]
  rcases build_of_discovered leaves found with
    ⟨e, failed, result, after⟩ | ⟨failures, staged, ready, -, -⟩
  · rw [failed]
    exact ⟨result.symm, after.symm⟩
  · have known : (State.workersOf options staged).map Prod.fst = staged := by
      simp [State.workersOf, Function.comp_def]
    rw [ready]
    refine ⟨paths, found, by simp, by rw [known, ready], ?_⟩
    rw [known]
    exact sideBySide_start (apart_of_prepare tree free found ready) free

theorem sound_of_step (tree : disk.IsTree) (free : disk.LinkFree) (leaves : LeavesFiles compiler)
    {before after : State} (sound : Sound options compiler disk before)
    (step : Step options compiler before after) : Sound options compiler disk after := by
  cases step with
  | read front back path current =>
    obtain ⟨rfl, found, known⟩ := sound
    refine ⟨rfl, by simpa using found, fun slot member => ?_⟩
    rcases mem_append.mp member with member | member
    · exact known slot (by simp [member])
    · rcases mem_cons.mp member with rfl | member
      · exact .inr rfl
      · exact known slot (by simp [member])
  | stage slots results current full =>
    obtain ⟨rfl, found, known⟩ := sound
    have same : results = (slots.map Prod.fst).map (check current) := by
      refine List.map_injective_iff.mpr (Option.some_injective _) ?_
      rw [← full, List.map_map, List.map_map]
      refine List.map_congr_left fun slot member => (known slot member).resolve_left fun none => ?_
      have listed : slot.2 ∈ results.map some := full ▸ mem_map_of_mem member
      simp [none] at listed
    rw [same]
    exact sound_staged tree free leaves found
  | emit count failures front back staged progress next current current' stepped =>
    obtain ⟨paths, found, counted, ready, side⟩ := sound
    have same : (front ++ (staged, next) :: back).map Prod.fst =
        (front ++ (staged, progress) :: back).map Prod.fst := by simp
    refine ⟨paths, found, counted, by rw [same, ready], ?_⟩
    rw [same]
    exact side.step (apart_of_prepare tree free found ready) free stepped
  | finish count failures results current =>
    obtain ⟨paths, found, rfl, ready, side⟩ := sound
    have same : (results.map fun r => (r.1, Progress.ended r.2)).map Prod.fst =
        results.map Prod.fst := by simp
    rw [same] at ready side
    obtain ⟨emitted, ends⟩ := side.finish (apart_of_prepare tree free found ready) free
    rcases build_of_discovered leaves found with
      ⟨e, failed, -, -⟩ | ⟨failures', staged, ready', result, after⟩
    · rw [failed] at ready
      simp at ready
    · rw [ready, Except.ok.injEq, Prod.mk.injEq] at ready'
      obtain ⟨rfl, rfl⟩ := ready'
      rw [Sound, emitted, result, after]
      exact ⟨rfl, ends⟩

theorem sound_of_run (tree : disk.IsTree) (free : disk.LinkFree) (leaves : LeavesFiles compiler)
    {state : State} (run : ReflTransGen (Step options compiler) (.initial options disk) state) :
    Sound options compiler disk state := by
  induction run with
  | refl => exact sound_initial options compiler disk
  | tail _ step ih => exact sound_of_step tree free leaves ih step

/-- Render code of a component of a pass that the compiler gave and that could be read. -/
def Parsed (compiler : Compiler) (disk : Disk) (paths : List Path) (path : Path)
    (component : Checked) (artifact : Artifact) : Prop :=
  path ∈ paths ∧ check disk path = .ok component ∧ ∃ compiled code,
    (compiler.compile (batchOf (split (paths.map (check disk))).1) disk).result = .ok compiled ∧
      compiled.get? path = some (.ok code) ∧ Artifact.parse code = .ok artifact

/-- Modules are made from render code that is reconciled with the imports of all render code of
the pass, also those of components that fail while they are written. -/
def ReconciledWithAll (options : Options) (compiler : Compiler) (disk : Disk) (report : Report)
    (after : Disk) : Prop :=
  ∃ paths imports, (discover disk options.directory).1 = .ok paths ∧
    (∀ name, imports.contains name = true ↔ ∃ path component artifact,
      Parsed compiler disk paths path component artifact ∧ name ∈ artifact.importedNames) ∧
    ∀ path component artifact, Parsed compiler disk paths path component artifact →
      let code := Module.assemble options.runtime (Source.nameOf path)
        (.compiled (options.runtime.reconcile artifact imports)) component.members
        component.messages
      let output := Source.outputPath path "js"
      (after.node? (disk.placeOf output) = disk.node? (disk.placeOf output) ∨
          after.node? (disk.placeOf output) = some (.file (Text.toBytes code))) ∧
        ((∀ failure ∈ report.failures, failure.path ≠ path) →
          after.read output = .ok (Text.toBytes code))

theorem mem_staged_iff_parsed {paths : List Path} {failures : List ComponentFailure}
    {staged : List Staged} (mode : options.mode = .release)
    (ready : prepare options compiler (paths.map (check disk)) disk = .ok (failures, staged))
    {s : Staged} :
    s ∈ staged ↔ ∃ path component artifact, Parsed compiler disk paths path component artifact ∧
      s = ⟨component, some artifact⟩ := by
  obtain ⟨answer, answered⟩ := exists_answered ready
  obtain ⟨failures', ready', -⟩ := prepare_of_answered answered
  rw [ready, Except.ok.injEq, Prod.mk.injEq] at ready'
  obtain ⟨compiled, compiles, answers⟩ := answered mode
  have answer_eq {path : Path} {component : Checked} (listed : path ∈ paths)
      (checked : check disk path = .ok component) :
      compiled.get? path = some (answer path) := by
    have named := @check_path disk path
    rw [checked] at named
    refine named ▸ answers component (mem_split_fst.mpr ?_)
    rw [← checked]
    exact mem_map_of_mem listed
  rw [ready'.2, stagedBy, mem_split_fst, mem_map, mode]
  constructor
  · rintro ⟨path, listed, judged⟩
    rw [judge] at judged
    cases checked : check disk path with
    | error failure => simp [checked] at judged
    | ok component =>
      simp only [checked, stage] at judged
      cases code : answer path with
      | error reason => simp [code] at judged
      | ok text =>
        simp only [code] at judged
        cases parsed : Artifact.parse text with
        | error e => simp [parsed] at judged
        | ok artifact =>
          simp only [parsed, Except.ok.injEq] at judged
          refine ⟨path, component, artifact, ⟨listed, checked, compiled, text, compiles, ?_, parsed⟩,
            judged.symm⟩
          rw [answer_eq listed checked, code]
  · rintro ⟨path, component, artifact, ⟨listed, checked, compiled', text, compiles', code, parsed⟩, rfl⟩
    rw [compiles, Except.ok.injEq] at compiles'
    rw [← compiles', answer_eq listed checked, Option.some.injEq] at code
    exact ⟨path, listed, by simp only [judge, checked, stage, code, parsed]⟩

theorem reconciledWithAll_build (tree : disk.IsTree) (free : disk.LinkFree)
    (leaves : LeavesFiles compiler) (mode : options.mode = .release) {report : Report}
    (finished : (build options compiler disk).result = .ok report) :
    ReconciledWithAll options compiler disk report (build options compiler disk).disk := by
  cases found : (discover disk options.directory).1 with
  | error e =>
    rw [(build_of_not_discovered found).1] at finished
    simp at finished
  | ok paths =>
    rcases build_of_discovered leaves found with
      ⟨e, -, result, -⟩ | ⟨failures, staged, ready, result, after⟩
    · rw [result] at finished
      simp at finished
    rw [result, Except.ok.injEq] at finished
    have apart := apart_of_prepare tree free found ready
    have emitted := @emitted_emitAll disk options (importsOf staged) staged apart free
    obtain ⟨results, -, -⟩ := @emitAll_spec disk options (importsOf staged) staged apart free disk
      free fun s _ => .refl _ disk
    refine ⟨paths, importsOf staged, found, fun name => ?_, ?_⟩
    · simp only [contains_importsOf, mem_staged_iff_parsed mode ready]
      constructor
      · rintro ⟨_, ⟨path, component, artifact, parsed, rfl⟩, _, same, listed⟩
        exact ⟨path, component, artifact, parsed, Option.some.inj same ▸ listed⟩
      · rintro ⟨path, component, artifact, parsed, listed⟩
        exact ⟨_, ⟨path, component, artifact, parsed, rfl⟩, artifact, rfl, listed⟩
    · intro path component artifact parsed
      have named := @check_path disk path
      rw [parsed.2.1] at named
      have member : ⟨component, some artifact⟩ ∈ staged :=
        (mem_staged_iff_parsed mode ready).mpr ⟨path, component, artifact, parsed, rfl⟩
      obtain ⟨either, reads⟩ := emitted.outputs apart free member mem_cons_self
      simp only [named, moduleOf] at either reads
      rw [after]
      refine ⟨either, fun spared => ?_⟩
      cases alone : (solo options (importsOf staged) disk ⟨component, some artifact⟩).1 with
      | ok outcomes => exact reads outcomes alone
      | error e =>
        refine absurd ?_ (spared ⟨path, e⟩ ?_)
        · rfl
        · rw [← finished, summary, ComponentFailure.sort, mem_mergeSort, mem_append,
            mem_split_snd, results, mem_map]
          refine .inr ⟨_, member, ?_⟩
          rw [alone, named]
          rfl

end Pass

/-- Two components in one directory. -/
def pair : Disk where
  nodes := .ofList [
    (["vue"], .directory),
    (["vue", "a.vue"], .file (Text.toBytes "<template><b>1</b></template>")),
    (["vue", "b.vue"], .file (Text.toBytes "<template><i>2</i></template>"))]
  home := []

/-- The templates of a pair are compiled. -/
def pairOptions : Options := { directory := .ofString "vue", mode := .release }

/-- A compiler with one answer for all templates. -/
def pairCompiler : Compiler :=
  ({ standard := some "export function render() \x7b\x7d" } : Compiler.Prepared).compiler
    "prepared"

theorem discover_pair : (discover pair pairOptions.directory).1 =
    .ok [.ofString "vue/a.vue", .ofString "vue/b.vue"] := by cbv

end ComponentPack.Build
