import Mathlib
import ComponentPack.Proofs.Build.Rebuild

/-!
What the summary of a pass counts. A component comes to its outputs one after the other, up to one
that cannot be written; each output before that is found as it should be, or it is written. The
summary has these outcomes of the components that are emitted as a whole. What a component has
written before it failed is on the disk, and in no count.
-/

set_option autoImplicit false

namespace ComponentPack

open List

namespace Files

def Node.isFile : Node → Bool
  | .file _ => true
  | _ => false

namespace Disk

/-- The files that were not there before, or had other bytes. -/
def changedFiles (disk after : Disk) : Finset Location :=
  after.nodes.keys.toFinset.filter fun l =>
    (after.node? l).any Node.isFile = true ∧ after.node? l ≠ disk.node? l

theorem mem_changedFiles {disk after : Disk} {l : Location} :
    l ∈ disk.changedFiles after ↔
      ∃ content, after.node? l = some (.file content) ∧ disk.node? l ≠ some (.file content) := by
  have there : (∃ content, after.node? l = some (.file content)) → l ∈ after.nodes.keys := by
    rintro ⟨content, found⟩
    cases l with
    | nil => simp [node?] at found
    | cons name names => exact Dictionary.mem_keys_iff.mpr ⟨_, found⟩
  rw [changedFiles, Finset.mem_filter, mem_toFinset]
  constructor
  · rintro ⟨-, file, other⟩
    cases found : after.node? l with
    | none => simp [found] at file
    | some node =>
      cases node with
      | file content => exact ⟨content, rfl, fun same => other (found.trans same.symm)⟩
      | directory | link target => simp [found, Node.isFile] at file
  · rintro ⟨content, found, other⟩
    exact ⟨there ⟨content, found⟩, by simp [found, Node.isFile], by rw [found]; exact other.symm⟩

end Disk

end Files

namespace Build

open Component Files Disk ComponentPack.Path Render

variable {failure : ComponentFailure} {path : Path}

/-- The output that could not be written, if that is the failure. -/
def ComponentFailure.output? (failure : ComponentFailure) : Option Path :=
  match failure.error with
  | .write path _ => some path
  | _ => none

theorem ComponentFailure.output?_eq_some_iff :
    failure.output? = some path ↔ ∃ fault, failure.error = .write path fault := by
  rw [output?]
  cases failure.error <;> simp

/-- The outputs of a component that a pass with these failures has come through: all before the
first one that could not be written. -/
def reached (options : Options) (imports : ImportSet) (failures : List ComponentFailure)
    (staged : Staged) : List Output :=
  (outputsIn (emissions options imports staged)).takeWhile fun output =>
    some output.1 ∉ failures.map ComponentFailure.output?

/-- The places of the outputs that a pass with these failures has come through with an outcome. -/
def placesWith (outcome : WriteOutcome) (options : Options) (imports : ImportSet) (disk : Disk)
    (failures : List ComponentFailure) (staged : List Staged) : Finset Location :=
  (((staged.flatMap (reached options imports failures)).filter fun output =>
    outcomeOn disk output = outcome).map fun output => disk.placeOf output.1).toFinset

/-- The places of all outputs that components can have. -/
def outputPlaces (disk : Disk) (paths : List Path) : Finset Location :=
  (paths.flatMap fun path => extensions.map fun extension =>
    disk.placeOf (Source.outputPath path extension)).toFinset

section Pass

variable {options : Options} {answer : Path → Compiler.Artifact} {imports : ImportSet}
  {disk after : Disk} {directory : Path} {paths : List Path} {failures : List ComponentFailure}
  {s : Staged} {staged : List Staged} {outcome : WriteOutcome} {output : Output}

theorem mem_placesWith {l : Location} :
    l ∈ placesWith outcome options imports disk failures staged ↔
      ∃ s ∈ staged, ∃ output ∈ reached options imports failures s,
        outcomeOn disk output = outcome ∧ disk.placeOf output.1 = l := by
  simp only [placesWith, mem_toFinset, mem_map, mem_filter, mem_flatMap,
    decide_eq_true_eq]
  grind

theorem mem_outputPlaces {l : Location} : l ∈ outputPlaces disk paths ↔
    ∃ path ∈ paths, ∃ extension ∈ extensions,
      disk.placeOf (Source.outputPath path extension) = l := by
  simp [outputPlaces]

theorem exists_extension_of_mem_outputsIn
    (member : output ∈ outputsIn (emissions options imports s)) :
    ∃ extension ∈ extensions, output.1 = Source.outputPath s.component.path extension := by
  obtain ⟨content, listed, -⟩ := mem_outputsIn.mp member
  exact exists_extension_of_mem listed

theorem mem_outputsIn_of_reached (among : output ∈ reached options imports failures s) :
    output ∈ outputsIn (emissions options imports s) :=
  (takeWhile_sublist _).mem among

theorem placeOf_mem_footprint (placed : Placed disk path) {extension : Text}
    (he : extension ∈ extensions) :
    disk.placeOf (Source.outputPath path extension) ∈ footprint (disk.placeOf path) := by
  obtain ⟨base, name, same, holds⟩ := placed.holds_outputPath he
  rw [same, placeOf_join disk base holds.isName]
  exact holds.output

theorem placeOf_mem_areaOf (placed : Placed disk s.component.path)
    (member : output ∈ outputsIn (emissions options imports s)) :
    disk.placeOf output.1 ∈ areaOf disk s := by
  obtain ⟨extension, he, same⟩ := exists_extension_of_mem_outputsIn member
  rw [same]
  exact placeOf_mem_footprint placed he

/-- How the components at some paths have ended: the failures of those that were staged are the
errors of their emissions, and the others have failed early. -/
structure Ended (options : Options) (imports : ImportSet) (disk : Disk) (paths : List Path)
    (staged : List Staged) (failures : List ComponentFailure) : Prop where
  placed : ∀ path ∈ paths, Placed disk path
  different : ∀ a ∈ paths, ∀ b ∈ paths, disk.placeOf a = disk.placeOf b → a = b
  listed : ∀ s ∈ staged, s.component.path ∈ paths
  unique : ∀ a ∈ staged, ∀ b ∈ staged, a.component.path = b.component.path → a = b
  mem_iff : ∀ s ∈ staged, ∀ e,
    ⟨s.component.path, e⟩ ∈ failures ↔ (solo options imports disk s).1 = .error e
  known : ∀ failure ∈ failures, failure.path ∈ paths ∧
    (failure.IsEarly ∨ ∃ s ∈ staged, s.component.path = failure.path)

theorem isEarly_of_judge {mode : Mode} (judged : judge mode answer disk path = .error failure) :
    failure.IsEarly := by
  intro output fault written
  have named : ∀ path error, failure = ⟨path, error⟩ → error = .write output fault := by
    rintro path error rfl
    exact written
  simp only [judge, check, checkText, stage] at judged
  grind

theorem mem_failures_iff :
    failure ∈ (reportOf options answer disk paths).failures ↔ failure.path ∈ paths ∧
      settle options answer (importsOf (stagedBy options.mode answer disk paths)) disk
        failure.path = .error failure := by
  refine ⟨settle_of_mem_failures, fun known => ?_⟩
  exact (ComponentFailure.sort_perm _).mem_iff.mpr
    (mem_split_snd.mpr (mem_map.mpr ⟨_, known⟩))

theorem ended_reportOf (found : Discovered disk directory paths) (tree : disk.IsTree) :
    Ended options (importsOf (stagedBy options.mode answer disk paths)) disk paths
      (stagedBy options.mode answer disk paths) (reportOf options answer disk paths).failures := by
  have judged : ∀ s ∈ stagedBy options.mode answer disk paths,
      s.component.path ∈ paths ∧ judge options.mode answer disk s.component.path = .ok s := by
    intro s member
    obtain ⟨path, listed, judged⟩ := mem_map.mp (mem_split_fst.mp member)
    have named := @judge_path disk options.mode answer path
    rw [judged] at named
    exact named ▸ ⟨listed, judged⟩
  constructor
  · exact fun path listed => found.placed tree listed
  · exact fun a ha b hb => found.eq_of_placeOf tree ha hb
  · exact fun s member => (judged s member).1
  · intro a ha b hb same
    have first := (judged a ha).2
    rw [same, (judged b hb).2] at first
    exact (Except.ok.inj first).symm
  · intro s member e
    obtain ⟨listed, judged⟩ := judged s member
    rw [mem_failures_iff, settle, judged]
    cases ended : (solo options (importsOf (stagedBy options.mode answer disk paths)) disk s).1 <;>
      simp [ended, Except.mapError, listed]
  · intro failure member
    obtain ⟨listed, settled⟩ := mem_failures_iff.mp member
    refine ⟨listed, ?_⟩
    cases judged : judge options.mode answer disk failure.path with
    | error other =>
      rw [settle, judged, Except.error.injEq] at settled
      exact .inl (isEarly_of_judge (settled ▸ judged))
    | ok s =>
      have named := @judge_path disk options.mode answer failure.path
      rw [judged] at named
      exact .inr ⟨s, mem_split_fst.mpr (mem_map.mpr ⟨_, listed, judged⟩), named⟩

namespace Ended

variable (ended : Ended options imports disk paths staged failures)

include ended

theorem placedAt (member : s ∈ staged) : Placed disk s.component.path :=
  ended.placed _ (ended.listed s member)

/-- The place of an output tells the component. -/
theorem path_eq {a b : Path} (ha : a ∈ paths) (hb : b ∈ paths) {extension extension' : Text}
    (he : extension ∈ extensions) (he' : extension' ∈ extensions)
    (same : disk.placeOf (Source.outputPath a extension) =
      disk.placeOf (Source.outputPath b extension')) : a = b := by
  have placed := ended.placed a ha
  have placed' := ended.placed b hb
  by_contra other
  have apart := disjoint_footprint placed.isSource placed'.isSource fun together =>
    other (ended.different a ha b hb together)
  exact Set.disjoint_left.mp apart (placeOf_mem_footprint placed he)
    (same ▸ placeOf_mem_footprint placed' he')

/-- A component that fails at an output is staged. -/
theorem exists_staged (member : failure ∈ failures) {fault : Fault}
    (written : failure.error = .write path fault) :
    ∃ s ∈ staged, s.component.path = failure.path ∧
      (solo options imports disk s).1 = .error (.write path fault) := by
  rcases (ended.known failure member).2 with early | ⟨s, member', named⟩
  · exact absurd written (early path fault)
  · refine ⟨s, member', named, (ended.mem_iff s member' _).mp ?_⟩
    rw [named, ← written]
    exact member

theorem exists_tallied (free : disk.LinkFree) (member : s ∈ staged) :
    ∃ done rest, Tallied disk (emissions options imports s) (solo options imports disk s).1
      (solo options imports disk s).2 done rest :=
  Build.exists_tallied (outputs_emissions (ended.placedAt member))
    (separate_emissions (ended.placedAt member)) free

/-- The output that a failure names is the one at which the emission of its component ended. -/
theorem some_mem_iff (free : disk.LinkFree) (member : s ∈ staged)
    (listed : output ∈ outputsIn (emissions options imports s)) :
    some output.1 ∈ failures.map ComponentFailure.output? ↔
      ∃ fault, (solo options imports disk s).1 = .error (.write output.1 fault) := by
  rw [mem_map]
  constructor
  · rintro ⟨failure, failed, named⟩
    obtain ⟨fault, written⟩ := ComponentFailure.output?_eq_some_iff.mp named
    obtain ⟨s', member', -, result⟩ := ended.exists_staged failed written
    obtain ⟨done, rest, tallied⟩ := ended.exists_tallied free member'
    rcases tallied.result with ⟨-, fine⟩ | ⟨output', later, fault', stopped, failed'⟩
    · rw [result] at fine
      simp at fine
    rw [result, Except.error.injEq, ComponentError.write.injEq] at failed'
    have listed' : output' ∈ outputsIn (emissions options imports s') := by
      simp [tallied.outputs, stopped]
    obtain ⟨extension, he, same⟩ := exists_extension_of_mem_outputsIn listed
    obtain ⟨extension', he', same'⟩ := exists_extension_of_mem_outputsIn listed'
    have together := ended.path_eq (ended.listed s member) (ended.listed s' member') he he'
      (by rw [← same, ← same', failed'.1])
    exact ⟨fault, ended.unique s member s' member' together ▸ result⟩
  · rintro ⟨fault, result⟩
    exact ⟨_, (ended.mem_iff s member _).mpr result, rfl⟩

/-- The emission of a component has come through the outputs that are said to be reached. -/
theorem tallied (free : disk.LinkFree) (member : s ∈ staged) :
    ∃ rest, Tallied disk (emissions options imports s) (solo options imports disk s).1
      (solo options imports disk s).2 (reached options imports failures s) rest := by
  obtain ⟨done, rest, tallied⟩ := ended.exists_tallied free member
  have named {output : Output} (among : output ∈ done ++ rest) :=
    ended.some_mem_iff free member (tallied.outputs ▸ among)
  suffices same : reached options imports failures s = done by
    rw [same]
    exact ⟨rest, tallied⟩
  rw [reached, tallied.outputs]
  rcases tallied.result with ⟨rfl, fine⟩ | ⟨output, later, fault, rfl, failed⟩
  · rw [append_nil, takeWhile_eq_self_iff]
    intro output among
    simp [named (mem_append_left _ among), fine]
  · rw [takeWhile_append_of_pos, takeWhile_cons_of_neg, append_nil]
    · simp [named (mem_append_right done mem_cons_self), failed]
    · intro earlier among
      have other := tallied.path_ne (separate_emissions (ended.placedAt member)) among
        mem_cons_self
      simp [named (mem_append_left _ among), failed, other.symm]

/-- The outputs of a staged component are those of a failed one exactly if its emission fails. -/
theorem mem_outputPlaces_iff (member : s ∈ staged)
    (listed : output ∈ outputsIn (emissions options imports s)) :
    disk.placeOf output.1 ∈ outputPlaces disk (failures.map ComponentFailure.path) ↔
      ∃ e, (solo options imports disk s).1 = .error e := by
  obtain ⟨extension, he, same⟩ := exists_extension_of_mem_outputsIn listed
  rw [mem_outputPlaces]
  constructor
  · rintro ⟨path, among, extension', he', here⟩
    obtain ⟨failure, failed, rfl⟩ := mem_map.mp among
    have together := ended.path_eq (ended.known failure failed).1 (ended.listed s member) he' he
      (here.trans (by rw [same]))
    exact ⟨failure.error, (ended.mem_iff s member _).mp (together ▸ failed)⟩
  · rintro ⟨e, result⟩
    exact ⟨_, mem_map_of_mem ((ended.mem_iff s member e).mpr result), extension, he,
      by rw [same]⟩

/-- The files that a pass has changed are the outputs it has come through and written. -/
theorem changedFiles_eq (free : disk.LinkFree)
    (emitted : Emitted options imports disk staged after) :
    disk.changedFiles after = placesWith .written options imports disk failures staged := by
  ext l
  rw [mem_changedFiles, mem_placesWith]
  constructor
  · rintro ⟨content, there, other⟩
    by_cases inside : l ∈ areas disk staged
    · obtain ⟨s, member, inside⟩ := inside
      obtain ⟨rest, tallied⟩ := ended.tallied free member
      rw [(emitted.agree s member).inside l inside] at there
      by_cases come : ∃ output ∈ reached options imports failures s, disk.placeOf output.1 = l
      · obtain ⟨output, among, rfl⟩ := come
        rw [(tallied.stored output among).1] at there
        exact ⟨s, member, output, among, if_neg fun same => other (same.trans there), rfl⟩
      · have kept := tallied.kept l fun output among same => come ⟨output, among, same⟩
        rw [there] at kept
        rcases kept with same | missing
        · exact absurd same.symm other
        · simp at missing
    · exact absurd ((emitted.confined.outside l inside).symm.trans there) other
  · rintro ⟨s, member, output, among, written, rfl⟩
    obtain ⟨rest, tallied⟩ := ended.tallied free member
    have inside := placeOf_mem_areaOf (ended.placedAt member) (mem_outputsIn_of_reached among)
    refine ⟨output.2, ?_, fun there => ?_⟩
    · rw [← (tallied.stored output among).1]
      exact (emitted.agree s member).inside _ inside
    · rw [outcomeOn, if_pos there] at written
      simp at written

theorem placesWith_subset :
    placesWith outcome options imports disk failures staged ⊆ outputPlaces disk paths := by
  intro l member
  obtain ⟨s, among, output, listed, -, rfl⟩ := mem_placesWith.mp member
  obtain ⟨extension, he, same⟩ :=
    exists_extension_of_mem_outputsIn (mem_outputsIn_of_reached listed)
  exact mem_outputPlaces.mpr ⟨_, ended.listed s among, extension, he, by rw [same]⟩

/-- A component that fails at an output has come through none before exactly if that is its
module. -/
theorem reached_eq_nil_iff (free : disk.LinkFree) (member : s ∈ staged) {fault : Fault}
    (failed : (solo options imports disk s).1 = .error (.write path fault)) :
    reached options imports failures s = [] ↔
      path = Source.outputPath s.component.path "js" := by
  obtain ⟨rest, tallied⟩ := ended.tallied free member
  rcases tallied.result with ⟨-, fine⟩ | ⟨output, later, fault', rfl, failed'⟩
  · rw [failed] at fine
    simp at fine
  rw [failed, Except.error.injEq, ComponentError.write.injEq] at failed'
  rw [failed'.1]
  obtain ⟨content, others, outputs⟩ : ∃ content others,
      outputsIn (emissions options imports s) =
        (Source.outputPath s.component.path "js", content) :: others := ⟨_, _, rfl⟩
  have listed := tallied.outputs
  rw [outputs] at listed
  constructor
  · intro none
    rw [none, nil_append, List.cons.injEq] at listed
    rw [← listed.1]
  · intro first
    cases before : reached options imports failures s with
    | nil => rfl
    | cons earlier _ =>
      rw [before, cons_append, List.cons.injEq] at listed
      have other := tallied.path_ne (separate_emissions (ended.placedAt member))
        (before ▸ mem_cons_self) mem_cons_self
      exact absurd (listed.1 ▸ first.symm) other

/-- Nothing is lost exactly if each component that fails at an output fails at its module. -/
theorem card_sdiff_eq_card_iff (free : disk.LinkFree) :
    (∀ outcome, (placesWith outcome options imports disk failures staged \
        outputPlaces disk (failures.map ComponentFailure.path)).card =
      (placesWith outcome options imports disk failures staged).card) ↔
      ∀ failure ∈ failures, ∀ output fault, failure.error = .write output fault →
        output = Source.outputPath failure.path "js" := by
  have counted (places lost : Finset Location) :
      (places \ lost).card = places.card ↔ ∀ l ∈ places, l ∉ lost := by
    rw [← Finset.disjoint_left, ← Finset.sdiff_eq_self_iff_disjoint]
    exact ⟨fun same => Finset.eq_of_subset_of_card_le Finset.sdiff_subset same.ge,
      fun same => by rw [same]⟩
  simp only [counted, mem_placesWith]
  constructor
  · intro kept failure failed path fault written
    obtain ⟨s, member, named, result⟩ := ended.exists_staged failed written
    rw [← named, ← ended.reached_eq_nil_iff free member result, eq_nil_iff_forall_not_mem]
    intro output among
    exact kept _ _ ⟨s, member, output, among, rfl, rfl⟩
      ((ended.mem_outputPlaces_iff member (mem_outputsIn_of_reached among)).mpr ⟨_, result⟩)
  · rintro modules outcome l ⟨s, member, output, among, -, rfl⟩ gone
    obtain ⟨e, result⟩ :=
      (ended.mem_outputPlaces_iff member (mem_outputsIn_of_reached among)).mp gone
    obtain ⟨path, fault, rfl⟩ := isWrite_of_emit result
    have first := modules _ ((ended.mem_iff s member _).mpr result) path fault rfl
    rw [(ended.reached_eq_nil_iff free member result).mpr first] at among
    exact not_mem_nil among

/-- The outputs that are not lost are those of the components that are emitted as a whole. -/
theorem placesWith_sdiff :
    placesWith outcome options imports disk failures staged \
        outputPlaces disk (failures.map ComponentFailure.path) =
      placesWith outcome options imports disk failures
        (staged.filter fun s => (solo options imports disk s).1.toOption.isSome) := by
  ext l
  rw [Finset.mem_sdiff, mem_placesWith, mem_placesWith]
  have lost {s : Staged} {output : Output} (member : s ∈ staged)
      (among : output ∈ reached options imports failures s) :
      (solo options imports disk s).1.toOption.isSome = true ↔
        disk.placeOf output.1 ∉ outputPlaces disk (failures.map ComponentFailure.path) := by
    rw [ended.mem_outputPlaces_iff member (mem_outputsIn_of_reached among)]
    cases (solo options imports disk s).1 <;> simp [Except.toOption]
  constructor
  · rintro ⟨⟨s, member, output, among, outcome, rfl⟩, kept⟩
    exact ⟨s, mem_filter.mpr ⟨member, (lost member among).mpr kept⟩, output, among, outcome,
      rfl⟩
  · rintro ⟨s, member, output, among, outcome, rfl⟩
    obtain ⟨member, emitted⟩ := mem_filter.mp member
    exact ⟨⟨s, member, output, among, outcome, rfl⟩, (lost member among).mp emitted⟩

end Ended

/-- Different outputs of components with different places have different places. -/
theorem nodup_reached (apart : Apart disk staged) :
    ((staged.flatMap (reached options imports failures)).map fun output =>
      disk.placeOf output.1).Nodup := by
  rw [map_flatMap, nodup_flatMap]
  constructor
  · intro s member
    exact (separate_emissions (apart.placed s member)).nodup_places.sublist
      ((takeWhile_sublist _).map _)
  · refine apart.disjoint.imp_of_mem fun {a b} ha hb disjoint l here there => ?_
    obtain ⟨output, among, rfl⟩ := mem_map.mp here
    obtain ⟨output', among', same⟩ := mem_map.mp there
    exact Set.disjoint_left.mp disjoint
      (placeOf_mem_areaOf (apart.placed a ha) (mem_outputsIn_of_reached among))
      (same ▸ placeOf_mem_areaOf (apart.placed b hb) (mem_outputsIn_of_reached among'))

theorem card_placesWith (apart : Apart disk staged) :
    (placesWith outcome options imports disk failures staged).card =
      (staged.flatMap (reached options imports failures)).countP
        fun output => outcomeOn disk output = outcome := by
  rw [placesWith, toFinset_card_of_nodup, length_map, countP_eq_length_filter]
  exact (nodup_reached apart).sublist (filter_sublist.map _)

/-- The outcomes of the components that are emitted as a whole are those of their outputs. -/
theorem count_outcomes
    (tallied : ∀ s ∈ staged, ∃ rest, Tallied disk (emissions options imports s)
      (solo options imports disk s).1 (solo options imports disk s).2
      (reached options imports failures s) rest) :
    (split (staged.map fun s => (solo options imports disk s).1.mapError
        (ComponentFailure.mk s.component.path))).1.flatten.count outcome =
      ((staged.filter fun s => (solo options imports disk s).1.toOption.isSome).flatMap
        (reached options imports failures)).countP fun output =>
          outcomeOn disk output = outcome := by
  induction staged with
  | nil => rfl
  | cons s staged ih =>
    rw [forall_mem_cons] at tallied
    obtain ⟨⟨rest, first⟩, others⟩ := tallied
    rcases first.result with ⟨-, result⟩ | ⟨output, later, fault, -, result⟩
    · rw [filter_cons_of_pos (by rw [result]; rfl), flatMap_cons, countP_append,
        ← ih others]
      simp only [map_cons, result, Except.mapError, split, flatten_cons]
      rw [count_append, List.count, countP_map]
      rfl
    · rw [filter_cons_of_neg (by rw [result]; exact Bool.false_ne_true), ← ih others]
      simp only [map_cons, result, Except.mapError, split]

/-- The outcomes in a report are those of the outputs that are not lost. -/
theorem count_settle (found : Discovered disk directory paths) (tree : disk.IsTree)
    (free : disk.LinkFree) (outcome : WriteOutcome) :
    let staged := stagedBy options.mode answer disk paths
    let failures := (reportOf options answer disk paths).failures
    (split (paths.map (settle options answer (importsOf staged) disk))).1.flatten.count outcome =
      (placesWith outcome options (importsOf staged) disk failures staged \
        outputPlaces disk (failures.map ComponentFailure.path)).card := by
  intro staged failures
  have apart := apart_of_discovered found tree options.mode answer
  have ended := @ended_reportOf options answer disk directory paths found tree
  have fewer : Apart disk (staged.filter fun s =>
      (solo options (importsOf staged) disk s).1.toOption.isSome) :=
    ⟨fun s member => apart.placed s (mem_filter.mp member).1, apart.different.filter _⟩
  rw [ended.placesWith_sdiff, card_placesWith fewer,
    (split_settle options answer (importsOf staged) disk paths).1]
  exact count_outcomes fun s member => ended.tallied free member

variable {compiler : Compiler}

end Pass

/-- A disk with one component, and a directory in the place of its stylesheet. -/
def blocked (content : ByteArray) : Disk where
  nodes := .ofList [
    (["vue"], .directory),
    (["vue", "a.vue"], .file content),
    (["vue", "a.vue.css"], .directory)]
  home := []

def blockedText : Text :=
  ("<template><p/></template><script>export default \x7b\x7d</script>" ++
    "<style>p \x7b color: red \x7d</style>").toList

theorem discover_blocked (content : ByteArray) :
    (discover (blocked content) loneOptions.directory).1 = .ok [.ofString "vue/a.vue"] := by
  cbv

theorem emit_blocked (content : ByteArray) (script style : Text) :
    (emit (blocked content) [.output (.ofString "vue/a.vue.js") script,
      .output (.ofString "vue/a.vue.css") style]).1 =
        .error (.write (.ofString "vue/a.vue.css") .isDirectory) := by
  cbv

/-- The failure of the component whose stylesheet is blocked. -/
def blockedFailure : ComponentFailure :=
  ⟨.ofString "vue/a.vue", .write (.ofString "vue/a.vue.css") .isDirectory⟩

/-- The component comes to its module and to its stylesheet. -/
theorem judge_blocked (answer : Path → Compiler.Artifact) : ∃ s,
    judge loneOptions.mode answer (blocked (Text.toBytes blockedText)) (.ofString "vue/a.vue") =
        .ok s ∧
      ∀ imports, ∃ script style, emissions loneOptions imports s =
        [.output (.ofString "vue/a.vue.js") script, .output (.ofString "vue/a.vue.css") style] := by
  have bytes (content : ByteArray) :
      (blocked content).read (.ofString "vue/a.vue") = .ok content := by cbv
  have known : (checkText (.ofString "vue/a.vue") blockedText).toOption.map (·.sections.style) =
      some "p \x7b color: red \x7d" := by decide +kernel
  obtain ⟨component, checked, path, style⟩ := check_of_readText (readText_of_read (bytes _)) known
  have module : Source.outputPath (.ofString "vue/a.vue") "js" =
      .ofString "vue/a.vue.js" := by decide
  have sheet : Source.outputPath (.ofString "vue/a.vue") "css" =
      .ofString "vue/a.vue.css" := by decide
  refine ⟨⟨component, none⟩, by rw [judge, checked]; rfl, fun imports => ?_⟩
  exact ⟨_, _, by rw [emissions, path, style, module, sheet]; rfl⟩

theorem placesWith_blocked (content : ByteArray) {imports : ImportSet} {s : Staged}
    {script style : Text} (emitted : emissions loneOptions imports s =
      [.output (.ofString "vue/a.vue.js") script, .output (.ofString "vue/a.vue.css") style]) :
    placesWith .written loneOptions imports (blocked content) [blockedFailure] [s] =
      {["vue".toList, "a.vue.js".toList]} := by
  have place : (blocked content).placeOf (.ofString "vue/a.vue.js") =
      ["vue".toList, "a.vue.js".toList] := by cbv
  have absent : (blocked content).node? ["vue".toList, "a.vue.js".toList] = none := by cbv
  have other : (.ofString "vue/a.vue.js" : Path) ≠ .ofString "vue/a.vue.css" := by decide
  have come : reached loneOptions imports [blockedFailure] s =
      [(.ofString "vue/a.vue.js", Text.toBytes script)] := by
    simp [reached, emitted, outputsIn, Emission.output?, blockedFailure, ComponentFailure.output?,
      other]
  have outcome : outcomeOn (blocked content) (.ofString "vue/a.vue.js", Text.toBytes script) =
      .written := by
    rw [outcomeOn, place, absent]
    rfl
  rw [placesWith, flatMap_singleton, come, filter_singleton]
  simp only [outcome, decide_true, cond_true, map_singleton, place]
  rfl

end Build

end ComponentPack
