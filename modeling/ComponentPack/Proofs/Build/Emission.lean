import ComponentPack.Proofs.Build.Footprint
import ComponentPack.Proofs.Files.Replacing

/-!
Emitting components. One component is emitted step by step in the area of its outputs; a step, and
so the whole emission, depends on nothing else. Components with different places can therefore be
emitted as if each of them were alone.
-/

set_option autoImplicit false

namespace ComponentPack.Build

open Component Files Disk ComponentPack.Path Render List

variable {disk after a b : Disk} {area : Set Location} {content : Text}

/-- How far the emission of a component has come. -/
inductive Progress where
  /-- The first emission of `rest` is at a stage. -/
  | working (done : List WriteOutcome) (stage : Stage) (rest : List Emission)
  | ended (result : Except ComponentError (List WriteOutcome))

namespace Progress

/-- The beginning of an emission. -/
def start (emissions : List Emission) : Progress := working [] .compare emissions

/-- Takes one step, unless the emission has ended. -/
def step (disk : Disk) : Progress → Option (Progress × Disk)
  | ended _ => none
  | working done _ [] => some (ended (.ok done), disk)
  | working done _ (.remark _ :: rest) => some (working done .compare rest, disk)
  | working done stage (.output path content :: rest) =>
    match stage.step disk path (Text.toBytes content) with
    | (.inl next, disk) => some (working done next (.output path content :: rest), disk)
    | (.inr (.ok outcome), disk) => some (working (done ++ [outcome]) .compare rest, disk)
    | (.inr (.error e), disk) => some (ended (.error (.write path e)), disk)

/-- Emits all that is left, and counts what is done. -/
def emitAfter (done : List WriteOutcome) (disk : Disk) (rest : List Emission) :
    Except ComponentError (List WriteOutcome) × Disk :=
  ((emit disk rest).1.map (done ++ ·), (emit disk rest).2.1)

/-- Takes all steps that are left, with no other component in between. -/
def complete (disk : Disk) : Progress → Except ComponentError (List WriteOutcome) × Disk
  | ended result => (result, disk)
  | working done stage (.output path content :: rest) =>
    match stage.complete disk path (Text.toBytes content) with
    | (.ok outcome, disk) => emitAfter (done ++ [outcome]) disk rest
    | (.error e, disk) => (.error (.write path e), disk)
  | working done _ rest => emitAfter done disk rest

theorem complete_compare (disk : Disk) (done : List WriteOutcome) (rest : List Emission) :
    (working done .compare rest).complete disk = emitAfter done disk rest := by
  cases rest with
  | nil => rfl
  | cons emission rest =>
    cases emission with
    | remark message => rfl
    | output path content =>
      rw [complete, emitAfter, emit, Stage.complete]
      cases disk.writeIfChanged path (Text.toBytes content) with
      | mk result disk =>
        cases result with
        | error e => rfl
        | ok outcome =>
          simp only [emitAfter]
          cases (emit disk rest).1 with
          | error e => rfl
          | ok outcomes => simp [Except.map]

theorem complete_start (disk : Disk) (emissions : List Emission) :
    (start emissions).complete disk = ((emit disk emissions).1, (emit disk emissions).2.1) := by
  rw [start, complete_compare, emitAfter]
  cases (emit disk emissions).1 <;> rfl

/-- A step does not change what comes of all steps. -/
theorem complete_of_step {progress next : Progress}
    (stepped : progress.step disk = some (next, after)) :
    next.complete after = progress.complete disk := by
  cases progress with
  | ended result => simp [step] at stepped
  | working done stage rest =>
    cases rest with
    | nil =>
      simp only [step, Option.some.injEq, Prod.mk.injEq] at stepped
      obtain ⟨rfl, rfl⟩ := stepped
      simp [complete, emitAfter, emit, Except.map]
    | cons emission rest =>
      cases emission with
      | remark message =>
        simp only [step, Option.some.injEq, Prod.mk.injEq] at stepped
        obtain ⟨rfl, rfl⟩ := stepped
        rw [complete_compare]
        rfl
      | output path content =>
        have whole := Stage.complete_eq disk path (Text.toBytes content) stage
        rw [step] at stepped
        rw [complete.eq_2, whole]
        split at stepped
        · next inner _ one =>
          rw [Option.some.injEq, Prod.mk.injEq] at stepped
          obtain ⟨rfl, rfl⟩ := stepped
          rw [one, complete.eq_2]
        · next inner _ one =>
          rw [Option.some.injEq, Prod.mk.injEq] at stepped
          obtain ⟨rfl, rfl⟩ := stepped
          rw [one, complete_compare]
        · next inner _ one =>
          rw [Option.some.injEq, Prod.mk.injEq] at stepped
          obtain ⟨rfl, rfl⟩ := stepped
          rw [one]
          rfl

/-- The greatest number of steps that are left. -/
def work : Progress → Nat
  | ended _ => 0
  | working _ stage rest => 6 * rest.length + stage.rank + 1

theorem work_lt_of_step {progress next : Progress}
    (stepped : progress.step disk = some (next, after)) : next.work < progress.work := by
  cases progress with
  | ended result => simp [step] at stepped
  | working done stage rest =>
    cases rest with
    | nil =>
      simp only [step, Option.some.injEq, Prod.mk.injEq] at stepped
      simp [← stepped.1, work]
    | cons emission rest =>
      cases emission with
      | remark message =>
        simp only [step, Option.some.injEq, Prod.mk.injEq] at stepped
        simp only [← stepped.1, work, Stage.rank, length_cons]
        omega
      | output path content =>
        rw [step] at stepped
        split at stepped
        · next one =>
          have lower := Stage.rank_lt_of_step one
          rw [Option.some.injEq, Prod.mk.injEq] at stepped
          simp only [← stepped.1, work]
          omega
        · rw [Option.some.injEq, Prod.mk.injEq] at stepped
          simp only [← stepped.1, work, Stage.rank, length_cons]
          omega
        · rw [Option.some.injEq, Prod.mk.injEq] at stepped
          simp [← stepped.1, work]

theorem step_eq_none_iff {progress : Progress} :
    progress.step disk = none ↔ ∃ result, progress = ended result := by
  cases progress with
  | ended result => simp [step]
  | working done stage rest =>
    simp only [reduceCtorEq, exists_false, iff_false]
    cases rest with
    | nil => simp [step]
    | cons emission rest =>
      cases emission with
      | remark message => simp [step]
      | output path content =>
        rw [step]
        split <;> simp

end Progress

/-- Outputs in directories that are there, in an area. -/
def Outputs (area : Set Location) (disk : Disk) (emissions : List Emission) : Prop :=
  ∀ path content, .output path content ∈ emissions →
    ∃ base name, path = base.join ⟨name⟩ ∧ Holds area disk base name

theorem Outputs.tail {emission : Emission} {rest : List Emission}
    (h : Outputs area disk (emission :: rest)) : Outputs area disk rest :=
  fun path content member => h path content (mem_cons_of_mem emission member)

theorem Outputs.transfer {emissions : List Emission} (h : Outputs area a emissions)
    {other : Set Location} (agree : Agree other a b) : Outputs area b emissions := by
  intro path content member
  obtain ⟨base, name, same, holds⟩ := h path content member
  exact ⟨base, name, same, holds.transfer agree⟩

namespace Progress

/-- What is left to emit lies in an area, and the first output is where its stage says. -/
def Within (area : Set Location) (disk : Disk) : Progress → Prop
  | ended _ => True
  | working _ stage rest => Outputs area disk rest ∧ ∀ path content others,
    rest = .output path content :: others → stage.Stored disk path (Text.toBytes content)

theorem within_start {emissions : List Emission} (outputs : Outputs area disk emissions) :
    (start emissions).Within area disk :=
  ⟨outputs, fun _ _ _ _ => trivial⟩

variable {area : Set Location} {a b : Disk} {progress : Progress}

theorem Within.transfer (within : progress.Within area a) (agree : Agree area a b) :
    progress.Within area b := by
  cases progress with
  | ended result => trivial
  | working done stage rest =>
    refine ⟨within.1.transfer agree, ?_⟩
    rintro path content others rfl
    have stored := within.2 path content others rfl
    obtain ⟨base, name, rfl, holds⟩ := within.1 path content mem_cons_self
    cases stage with
    | compare | prepare | store => trivial
    | move | discard _ =>
      rw [Stage.Stored, placeOf_temporary _ base holds.isName] at stored ⊢
      rw [agree.placeOf_eq, agree.inside _ holds.temporary, stored]

/-- A step does the same on disks that agree in the area. -/
theorem step_local (within : progress.Within area a) (agree : Agree area a b) (ha : a.LinkFree)
    (hb : b.LinkFree) {next : Progress} {b' : Disk} (stepped : progress.step b = some (next, b')) :
    ∃ a', progress.step a = some (next, a') ∧ Agree area a' b' ∧ Confined area a a' ∧
      next.Within area a' := by
  cases progress with
  | ended result => simp [step] at stepped
  | working done stage rest =>
    cases rest with
    | nil =>
      simp only [step, Option.some.injEq, Prod.mk.injEq] at stepped
      obtain ⟨rfl, rfl⟩ := stepped
      exact ⟨a, rfl, agree, .refl area a, trivial⟩
    | cons emission rest =>
      cases emission with
      | remark message =>
        simp only [step, Option.some.injEq, Prod.mk.injEq] at stepped
        obtain ⟨rfl, rfl⟩ := stepped
        exact ⟨a, rfl, agree, .refl area a, within.1.tail, fun _ _ _ _ => trivial⟩
      | output path content =>
        obtain ⟨base, name, rfl, holds⟩ := within.1 path content mem_cons_self
        have stored := within.2 _ content rest rfl
        obtain ⟨result, a', b'', one, two, agree', confined, kept⟩ :=
          Stage.step_local holds stored agree ha hb
        have outputs := within.1.transfer (confined.agree (Set.disjoint_empty area))
        rw [step, two] at stepped
        rw [step, one]
        rcases result with next | ⟨e⟩ | ⟨outcome⟩ <;>
          simp only [Option.some.injEq, Prod.mk.injEq] at stepped <;>
          obtain ⟨rfl, rfl⟩ := stepped
        · refine ⟨a', rfl, agree', confined, outputs, ?_⟩
          rintro _ _ _ same
          cases same
          exact kept next rfl
        · exact ⟨a', rfl, agree', confined, trivial⟩
        · exact ⟨a', rfl, agree', confined, outputs.tail, fun _ _ _ _ => trivial⟩

/-- All steps together do the same on disks that agree in the area. -/
theorem complete_local (within : progress.Within area a) (agree : Agree area a b)
    (ha : a.LinkFree) (hb : b.LinkFree) :
    (progress.complete a).1 = (progress.complete b).1 ∧
      Agree area (progress.complete a).2 (progress.complete b).2 ∧
      Confined area a (progress.complete a).2 := by
  -- By the number of steps that are left.
  induction work : progress.work using Nat.strongRecOn generalizing progress a b with
  | ind n ih =>
    subst work
    cases stepped : progress.step b with
    | none =>
      obtain ⟨result, rfl⟩ := step_eq_none_iff.mp stepped
      exact ⟨rfl, agree, .refl area a⟩
    | some after =>
      obtain ⟨next, b'⟩ := after
      obtain ⟨a', one, agree', confined, within'⟩ := step_local within agree ha hb stepped
      obtain ⟨_, two, -, confined', -⟩ :=
        step_local (within.transfer agree) (.refl area b) hb hb stepped
      rw [stepped, Option.some.injEq, Prod.mk.injEq] at two
      rw [← two.2] at confined'
      obtain ⟨same, agree'', rest⟩ := ih _ (work_lt_of_step stepped) within' agree'
        (confined.free ha) (confined'.free hb) rfl
      rw [complete_of_step one, complete_of_step stepped] at same agree''
      rw [complete_of_step one] at rest
      exact ⟨same, agree'', confined.trans rest⟩

end Progress

/-- An emission does the same on disks that agree in the area of its outputs. -/
theorem emit_local {emissions : List Emission} (outputs : Outputs area a emissions)
    (agree : Agree area a b) (ha : a.LinkFree) (hb : b.LinkFree) :
    (emit a emissions).1 = (emit b emissions).1 ∧
      Agree area (emit a emissions).2.1 (emit b emissions).2.1 ∧
      Confined area a (emit a emissions).2.1 := by
  have whole := Progress.complete_local (Progress.within_start outputs) agree ha hb
  rwa [Progress.complete_start, Progress.complete_start] at whole

/-- The outputs of a row of emissions and their temporary siblings. -/
def cells (disk : Disk) (emissions : List Emission) : Set Location :=
  {l | ∃ path content, .output path content ∈ emissions ∧ l ∈ cell disk path}

/-- Outputs that are different files, also of the temporary siblings of one another. -/
def Separate (disk : Disk) (emissions : List Emission) : Prop :=
  emissions.Pairwise fun a b => ∀ path content path' content',
    a = .output path content → b = .output path' content' →
      Disjoint (cell disk path) (cell disk path')

section Separate

variable {disk : Disk} {emissions : List Emission}

theorem Separate.disjoint_cells {path : Path} {rest : List Emission}
    (separate : Separate disk (.output path content :: rest)) :
    Disjoint (cells disk rest) (cell disk path) := by
  rw [Set.disjoint_left]
  rintro l ⟨path', content', member, inside⟩ here
  have apart := (pairwise_cons.mp separate).1 _ member _ _ _ _ rfl rfl
  exact Set.disjoint_left.mp apart here inside

theorem Separate.transfer {other : Disk} (separate : Separate disk emissions)
    (home : other.home = disk.home) : Separate other emissions := by
  simpa only [Separate, cell_eq home] using separate

end Separate

theorem Outputs.narrow {emissions : List Emission} (h : Outputs area disk emissions) :
    Outputs (cells disk emissions) disk emissions := by
  intro path content member
  obtain ⟨base, name, rfl, holds⟩ := h path content member
  refine ⟨base, name, rfl, holds.isName, holds.opens, ?_, ?_⟩
  · exact ⟨_, content, member, .inl (placeOf_join disk base holds.isName).symm⟩
  · exact ⟨_, content, member, .inr (placeOf_temporary disk base holds.isName).symm⟩

/-- Emissions leave an output alone that is none of theirs. -/
theorem emit_keeps {other : Set Location} {emissions : List Emission}
    (outputs : Outputs area disk emissions) (free : disk.LinkFree) {base : Path} {name : Text}
    (holds : Holds other disk base name)
    (outside : Disjoint (cells disk emissions) (cell disk (base.join ⟨name⟩))) :
    (emit disk emissions).2.1.node? (disk.placeOf (base.join ⟨name⟩)) =
        disk.node? (disk.placeOf (base.join ⟨name⟩)) ∧
      (emit disk emissions).2.1.read (base.join ⟨name⟩) = disk.read (base.join ⟨name⟩) := by
  obtain ⟨-, -, kept⟩ := emit_local outputs.narrow (.refl _ disk) free free
  have agree := kept.agree outside
  have holds' : Holds (cell disk (base.join ⟨name⟩)) disk base name :=
    holds.narrow (.inl (placeOf_join disk base holds.isName).symm)
      (.inr (placeOf_temporary disk base holds.isName).symm)
  exact ⟨agree.inside _ (.inl rfl), holds'.read_eq agree free (kept.free free)⟩

/-- An output with its bytes. -/
abbrev Output := Path × ByteArray

def Emission.output? : Emission → Option Output
  | .output path content => some (path, Text.toBytes content)
  | .remark _ => none

/-- The outputs of a row of emissions, in order. -/
def outputsIn (emissions : List Emission) : List Output := emissions.filterMap Emission.output?

/-- What comes of an output that can be written: it is unchanged if its place has its bytes. -/
def outcomeOn (disk : Disk) (output : Output) : WriteOutcome :=
  if disk.node? (disk.placeOf output.1) = some (.file output.2) then .unchanged else .written

/-- An emission that has come through the outputs `done`, and not through those of `rest`. -/
structure Tallied (disk : Disk) (emissions : List Emission)
    (result : Except ComponentError (List WriteOutcome)) (after : Disk)
    (done rest : List Output) : Prop where
  outputs : outputsIn emissions = done ++ rest
  result : rest = [] ∧ result = .ok (done.map (outcomeOn disk)) ∨
    ∃ output later fault, rest = output :: later ∧ result = .error (.write output.1 fault)
  stored : ∀ output ∈ done, after.node? (disk.placeOf output.1) = some (.file output.2) ∧
    after.read output.1 = .ok output.2
  kept : ∀ l, (∀ output ∈ done, disk.placeOf output.1 ≠ l) → after.node? l = disk.node? l ∨
    after.node? l = none ∧ ∃ output ∈ done, l ∈ cell disk output.1

section Tallied

variable {area : Set Location} {disk after : Disk} {emissions : List Emission}
  {result : Except ComponentError (List WriteOutcome)} {done rest : List Output}

theorem mem_outputsIn {output : Output} : output ∈ outputsIn emissions ↔
    ∃ content, .output output.1 content ∈ emissions ∧ output.2 = Text.toBytes content := by
  rw [outputsIn, mem_filterMap]
  constructor
  · rintro ⟨emission, member, same⟩
    cases emission with
    | remark message => simp [Emission.output?] at same
    | output path content =>
      obtain rfl := Option.some.inj same
      exact ⟨content, member, rfl⟩
  · rintro ⟨content, member, same⟩
    exact ⟨_, member, by rw [Emission.output?, ← same]⟩

theorem Separate.outputsIn (separate : Separate disk emissions) :
    (outputsIn emissions).Pairwise fun a b => Disjoint (cell disk a.1) (cell disk b.1) := by
  refine pairwise_filterMap.mpr (separate.imp ?_)
  rintro (⟨path, content⟩ | _) (⟨path', content'⟩ | _) apart output first output' second <;>
    simp only [Emission.output?, Option.some.injEq, reduceCtorEq] at first second
  subst first second
  exact apart _ _ _ _ rfl rfl

/-- Different outputs have different places. -/
theorem Separate.nodup_places (separate : Separate disk emissions) :
    ((Build.outputsIn emissions).map fun output => disk.placeOf output.1).Nodup := by
  refine pairwise_map.mpr (separate.outputsIn.imp ?_)
  intro a b apart same
  exact Set.disjoint_left.mp apart (.inl rfl) (.inl same)

theorem Tallied.disjoint_cell (tallied : Tallied disk emissions result after done rest)
    (separate : Separate disk emissions) {a b : Output} (ha : a ∈ done) (hb : b ∈ rest) :
    Disjoint (cell disk a.1) (cell disk b.1) := by
  have apart := separate.outputsIn
  rw [tallied.outputs, pairwise_append] at apart
  exact apart.2.2 a ha b hb

/-- No output is both come through and left. -/
theorem Tallied.path_ne (tallied : Tallied disk emissions result after done rest)
    (separate : Separate disk emissions) {a b : Output} (ha : a ∈ done) (hb : b ∈ rest) :
    a.1 ≠ b.1 := by
  intro same
  exact Set.disjoint_left.mp (tallied.disjoint_cell separate ha hb) (.inl rfl) (same ▸ .inl rfl)

/-- A write that succeeds has the outcome that the file before it tells, and leaves no new file
beside its output. -/
theorem outcomeOn_of_writes {base : Path} {name : Text} {content : ByteArray}
    {outcome : WriteOutcome} (free : disk.LinkFree) (opens : disk.OpensPath base)
    (named : IsName name) (writes : Writes disk base name content (.ok outcome, after)) :
    outcome = outcomeOn disk (base.join ⟨name⟩, content) ∧
      ∀ l, disk.placeOf (base.join ⟨name⟩) ≠ l → after.node? l = disk.node? l ∨
        after.node? l = none ∧ l ∈ cell disk (base.join ⟨name⟩) := by
  rw [outcomeOn, cell_join disk base named, placeOf_join disk base named]
  cases writes with
  | unchanged same =>
    exact ⟨(if_pos (node?_of_read free opens named same)).symm, fun l _ => .inl rfl⟩
  | written other clear vacant vacant' =>
    constructor
    · refine (if_neg fun there => other ?_).symm
      rw [read_join free opens named, clear, there]
      rfl
    · intro l elsewhere
      rw [node?_written, if_neg elsewhere]
      split
      · next same => exact .inr ⟨rfl, .inr same.symm⟩
      · exact .inl rfl

/-- One more output in front that could be written. -/
theorem Tallied.cons {path : Path} {content : Text} {next : Disk} {others : List Emission}
    (tallied : Tallied next others result after done rest) (home : next.home = disk.home)
    (stored : after.node? (disk.placeOf path) = some (.file (Text.toBytes content)) ∧
      after.read path = .ok (Text.toBytes content))
    (same : ∀ output ∈ done, outcomeOn next output = outcomeOn disk output)
    (beside : ∀ l, disk.placeOf path ≠ l → next.node? l = disk.node? l ∨
      next.node? l = none ∧ l ∈ cell disk path) :
    Tallied disk (.output path content :: others)
      (result.map (outcomeOn disk (path, Text.toBytes content) :: ·)) after
      ((path, Text.toBytes content) :: done) rest where
  outputs := congrArg (_ :: ·) tallied.outputs
  result := by
    rcases tallied.result with ⟨ended, rfl⟩ | ⟨output, later, fault, stopped, rfl⟩
    · rw [map_congr_left same]
      exact .inl ⟨ended, rfl⟩
    · exact .inr ⟨output, later, fault, stopped, rfl⟩
  stored := by
    intro output member
    rcases mem_cons.mp member with rfl | member
    · exact stored
    · rw [← placeOf_eq home]
      exact tallied.stored output member
  kept := by
    intro l elsewhere
    rw [forall_mem_cons] at elsewhere
    rcases tallied.kept l (by simpa only [placeOf_eq home] using elsewhere.2) with
      kept | ⟨gone, output, among, inside⟩
    · rw [kept]
      exact (beside l elsewhere.1).imp_right fun ⟨gone, inside⟩ =>
        ⟨gone, _, mem_cons_self, inside⟩
    · rw [cell_eq home] at inside
      exact .inr ⟨gone, output, mem_cons_of_mem _ among, inside⟩

/-- Emissions come through their outputs, up to one that cannot be written. -/
theorem exists_tallied (outputs : Outputs area disk emissions) (separate : Separate disk emissions)
    (free : disk.LinkFree) :
    ∃ done rest, Tallied disk emissions (emit disk emissions).1 (emit disk emissions).2.1
      done rest := by
  induction emissions generalizing disk with
  | nil => exact ⟨[], [], rfl, .inl ⟨rfl, rfl⟩, by simp, fun l _ => .inl rfl⟩
  | cons emission rest ih =>
    cases emission with
    | remark message =>
      obtain ⟨done, left, tallied⟩ := ih outputs.tail (pairwise_cons.mp separate).2 free
      exact ⟨done, left, tallied.outputs, tallied.result, tallied.stored, tallied.kept⟩
    | output path content =>
      obtain ⟨base, name, rfl, holds⟩ := outputs path content mem_cons_self
      have writes := writes_writeIfChanged free holds.opens holds.isName (Text.toBytes content)
      rw [emit]
      generalize disk.writeIfChanged _ _ = result at writes
      rcases result with ⟨fault | outcome, next⟩
      · -- Nothing has changed, and nothing more is tried.
        cases writes
        exact ⟨[], _, rfl, .inr ⟨_, _, fault, rfl, rfl⟩, by simp, fun l _ => .inl rfl⟩
      · obtain ⟨confined, there, known⟩ := writes.of_ok free holds.opens holds.isName
        obtain ⟨rfl, beside⟩ := outcomeOn_of_writes free holds.opens holds.isName writes
        rw [← cell_join disk base holds.isName] at confined
        rw [← placeOf_join disk base holds.isName] at there
        have home := confined.home
        have unseen := confined.agree (Set.disjoint_empty _)
        have tail := outputs.tail.transfer unseen
        have later := separate.transfer home
        obtain ⟨done, left, tallied⟩ := ih tail (pairwise_cons.mp later).2 (confined.free free)
        obtain ⟨still, reads⟩ :=
          emit_keeps tail (confined.free free) (holds.transfer unseen) later.disjoint_cells
        rw [placeOf_eq home, there] at still
        refine ⟨_, left, tallied.cons home ⟨still, reads.trans known⟩ (fun output member => ?_)
          beside⟩
        have among : output ∈ outputsIn rest := by simp [tallied.outputs, member]
        obtain ⟨content', listed, -⟩ := mem_outputsIn.mp among
        rw [outcomeOn, outcomeOn, placeOf_eq home, confined.outside _ fun inside =>
          Set.disjoint_left.mp separate.disjoint_cells ⟨_, content', listed, .inl rfl⟩ inside]

/-- An output stays as it was or gets its content, and it has its content after an emission that
succeeds. -/
theorem emit_outputs (outputs : Outputs area disk emissions) (separate : Separate disk emissions)
    (free : disk.LinkFree) {path : Path} (member : .output path content ∈ emissions) :
    ((emit disk emissions).2.1.node? (disk.placeOf path) = disk.node? (disk.placeOf path) ∨
        (emit disk emissions).2.1.node? (disk.placeOf path) =
          some (.file (Text.toBytes content))) ∧
      ∀ outcomes, (emit disk emissions).1 = .ok outcomes →
        (emit disk emissions).2.1.read path = .ok (Text.toBytes content) := by
  obtain ⟨done, rest, tallied⟩ := exists_tallied outputs separate free
  have listed : (path, Text.toBytes content) ∈ outputsIn emissions :=
    mem_outputsIn.mpr ⟨content, member, rfl⟩
  rw [tallied.outputs, mem_append] at listed
  rcases listed with through | left
  · obtain ⟨there, reads⟩ := tallied.stored _ through
    exact ⟨.inr there, fun outcomes _ => reads⟩
  · have apart {output : Output} (among : output ∈ done) (inside : disk.placeOf path ∈
        cell disk output.1) : False :=
      Set.disjoint_left.mp (tallied.disjoint_cell separate among left) inside (.inl rfl)
    constructor
    · rcases tallied.kept _ fun output among same => apart among (.inl same.symm) with
        kept | ⟨-, output, among, inside⟩
      · exact .inl kept
      · exact (apart among inside).elim
    · intro outcomes finished
      rcases tallied.result with ⟨rfl, -⟩ | ⟨_, _, _, -, failed⟩
      · exact absurd left not_mem_nil
      · exact absurd (finished.symm.trans failed) (by simp)

end Tallied

section Component

variable {disk : Disk} {options : Options} {imports : ImportSet} {staged : Staged}

/-- The area of the outputs of a component. -/
def areaOf (disk : Disk) (staged : Staged) : Set Location :=
  footprint (disk.placeOf staged.component.path)

theorem exists_extension_of_mem {path : Path}
    (member : .output path content ∈ emissions options imports staged) :
    ∃ extension ∈ extensions, path = Source.outputPath staged.component.path extension := by
  have known : ∀ text : Text, text ∈ extensions ↔
      text = "js" ∨ text = "css" ∨ text = "min.css" := by
    simp [extensions]
  rw [emissions, mem_cons] at member
  rcases member with same | member
  · exact ⟨_, (known _).mpr (.inl rfl), (Emission.output.inj same).1⟩
  · split at member
    · simp at member
    · rcases mem_cons.mp member with same | member
      · exact ⟨_, (known _).mpr (.inr (.inl rfl)), (Emission.output.inj same).1⟩
      · split at member
        · rw [mem_singleton] at member
          split at member
          · exact ⟨_, (known _).mpr (.inr (.inr rfl)), (Emission.output.inj member).1⟩
          · simp at member
        · simp at member

theorem outputs_emissions (placed : Placed disk staged.component.path) :
    Outputs (areaOf disk staged) disk (emissions options imports staged) := by
  intro path content member
  obtain ⟨extension, he, rfl⟩ := exists_extension_of_mem member
  exact placed.holds_outputPath he

theorem disjoint_cell {path : Path} (placed : Placed disk path) {extension extension' : Text}
    (he : extension ∈ extensions) (he' : extension' ∈ extensions) (other : extension ≠ extension') :
    Disjoint (cell disk (Source.outputPath path extension))
      (cell disk (Source.outputPath path extension')) := by
  obtain ⟨base, name, named, source, opens, rfl⟩ := placed
  have cells : ∀ e ∈ extensions, cell disk (Source.outputPath (base.join ⟨name⟩) e) =
      {disk.placeOf base ++ [outputName name e],
        disk.placeOf base ++ [temporaryName (outputName name e)]} := by
    intro e member
    rw [Source.outputPath, addExtension_join base named, ← outputName,
      cell_join disk base (isName_outputName named member)]
  have last := getLast?_outputName he name
  have last' := getLast?_outputName he' name
  rw [cells _ he, cells _ he', Set.disjoint_left]
  rintro l (rfl | rfl) (same | same) <;> have names := (append_singleton_inj.mp same).2
  · exact other (outputName_inj source source he he' names).2
  · simp [names, getLast?_temporaryName] at last
  · simp [← names, getLast?_temporaryName] at last'
  · exact other (outputName_inj source source he he' (temporaryName_inj names)).2

theorem separate_emissions (placed : Placed disk staged.component.path) :
    Separate disk (emissions options imports staged) := by
  have apart {a b : Text} (ha : a ∈ extensions) (hb : b ∈ extensions) (other : a ≠ b) :=
    disjoint_cell placed ha hb other
  have js : "js".toList ∈ extensions := by simp [extensions]
  have css : "css".toList ∈ extensions := by simp [extensions]
  have min : "min.css".toList ∈ extensions := by simp [extensions]
  have one := apart js css (by decide)
  have two := apart js min (by decide)
  have three := apart css min (by decide)
  rw [Separate, emissions]
  split_ifs
  · simp
  · cases Stylesheet.minify? staged.component.sections.style <;> simp <;> grind
  · simp
    grind

/-- What comes of emitting a component alone. -/
def solo (options : Options) (imports : ImportSet) (disk : Disk) (staged : Staged) :
    Except ComponentError (List WriteOutcome) × Disk :=
  ((emit disk (emissions options imports staged)).1,
    (emit disk (emissions options imports staged)).2.1)

end Component

/-- Components at different places, in directories that are there. -/
structure Apart (disk : Disk) (staged : List Staged) : Prop where
  placed : ∀ s ∈ staged, Placed disk s.component.path
  different : staged.Pairwise fun a b =>
    disk.placeOf a.component.path ≠ disk.placeOf b.component.path

/-- The areas of some components. -/
def areas (disk : Disk) (staged : List Staged) : Set Location :=
  {l | ∃ s ∈ staged, l ∈ areaOf disk s}

/-- A disk on which each component has been emitted as if it were alone. -/
structure Emitted (options : Options) (imports : ImportSet) (disk : Disk) (staged : List Staged)
    (after : Disk) : Prop where
  confined : Confined (areas disk staged) disk after
  agree : ∀ s ∈ staged, Agree (areaOf disk s) (solo options imports disk s).2 after

section All

variable {disk : Disk} {options : Options} {imports : ImportSet} {staged : List Staged}

theorem Apart.tail {first : Staged} (h : Apart disk (first :: staged)) : Apart disk staged :=
  ⟨fun s member => h.placed s (mem_cons_of_mem first member), h.different.of_cons⟩

theorem Apart.disjoint (h : Apart disk staged) :
    staged.Pairwise fun a b => Disjoint (areaOf disk a) (areaOf disk b) :=
  h.different.imp_of_mem fun ha hb other =>
    disjoint_footprint (h.placed _ ha).isSource (h.placed _ hb).isSource other

theorem Emitted.unique (ha : Emitted options imports disk staged a)
    (hb : Emitted options imports disk staged b) : a = b := by
  refine eq_of_node? (ha.confined.home.trans hb.confined.home.symm)
    (ha.confined.root.trans hb.confined.root.symm) fun l => ?_
  by_cases inside : l ∈ areas disk staged
  · obtain ⟨s, member, inside⟩ := inside
    rw [(ha.agree s member).inside l inside, (hb.agree s member).inside l inside]
  · rw [ha.confined.outside l inside, hb.confined.outside l inside]

/-- Emitting components one after the other gives for each of them what comes of emitting it
alone. -/
theorem emitAll_spec (apart : Apart disk staged) (free : disk.LinkFree) {current : Disk}
    (free' : current.LinkFree) (agree : ∀ s ∈ staged, Agree (areaOf disk s) disk current) :
    (emitAll options imports current staged).1 = staged.map (fun s =>
        (solo options imports disk s).1.mapError (ComponentFailure.mk s.component.path)) ∧
      Confined (areas disk staged) current (emitAll options imports current staged).2.1 ∧
      ∀ s ∈ staged, Agree (areaOf disk s) (solo options imports disk s).2
        (emitAll options imports current staged).2.1 := by
  induction staged generalizing current with
  | nil => exact ⟨rfl, .refl _ current, by simp⟩
  | cons first rest ih =>
    obtain ⟨separate, -⟩ := pairwise_cons.mp apart.disjoint
    have outputs := @outputs_emissions disk options imports first
      (apart.placed first mem_cons_self)
    have here := agree first mem_cons_self
    obtain ⟨same, agreed, -⟩ := emit_local outputs here free free'
    obtain ⟨-, -, confined⟩ := emit_local (outputs.transfer here) (.refl _ current) free' free'
    obtain ⟨results, kept, others⟩ := ih apart.tail (confined.free free') fun s member =>
      (agree s (mem_cons_of_mem first member)).trans (confined.agree (separate s member))
    have outside : Disjoint (areas disk rest) (areaOf disk first) := by
      rw [Set.disjoint_left]
      rintro l ⟨s, member, inside⟩ inside'
      exact Set.disjoint_left.mp (separate s member) inside' inside
    refine ⟨?_, ?_, ?_⟩
    · simp only [emitAll, map_cons, List.cons.injEq, solo, same, true_and]
      exact results
    · refine (confined.mono ?_).trans (kept.mono ?_)
      · exact fun l inside => ⟨first, mem_cons_self, inside⟩
      · exact fun l ⟨s, member, inside⟩ => ⟨s, mem_cons_of_mem first member, inside⟩
    · intro s member
      rcases mem_cons.mp member with rfl | member
      · exact agreed.trans (kept.agree outside)
      · exact others s member

/-- Components are emitted one after the other as if each of them were alone. -/
theorem emitted_emitAll (apart : Apart disk staged) (free : disk.LinkFree) :
    Emitted options imports disk staged (emitAll options imports disk staged).2.1 := by
  obtain ⟨-, confined, agree⟩ := @emitAll_spec disk options imports staged apart free disk free
    fun s _ => .refl _ disk
  exact ⟨confined, agree⟩

/-- An output of a component stays as it was or gets its content, and it has its content if the
component has been emitted as a whole. -/
theorem Emitted.outputs (h : Emitted options imports disk staged after) (apart : Apart disk staged)
    (free : disk.LinkFree) {s : Staged} (member : s ∈ staged) {path : Path}
    (listed : .output path content ∈ emissions options imports s) :
    (after.node? (disk.placeOf path) = disk.node? (disk.placeOf path) ∨
        after.node? (disk.placeOf path) = some (.file (Text.toBytes content))) ∧
      ∀ outcomes, (solo options imports disk s).1 = .ok outcomes →
        after.read path = .ok (Text.toBytes content) := by
  have placed := apart.placed s member
  have outputs := @outputs_emissions disk options imports s placed
  have agree := h.agree s member
  obtain ⟨-, -, confined⟩ := emit_local outputs (.refl _ disk) free free
  obtain ⟨either, reads⟩ := emit_outputs outputs (separate_emissions placed) free listed
  obtain ⟨base, name, rfl, holds⟩ := outputs path content listed
  have there : disk.placeOf (base.join ⟨name⟩) ∈ areaOf disk s := by
    rw [placeOf_join disk base holds.isName]
    exact holds.output
  refine ⟨?_, fun outcomes finished => ?_⟩
  · rw [agree.inside _ there]
    exact either
  · rw [(holds.transfer (confined.agree (Set.disjoint_empty _))).read_eq agree
      (confined.free free) (h.confined.free free)]
    exact reads outcomes finished

end All

end ComponentPack.Build
