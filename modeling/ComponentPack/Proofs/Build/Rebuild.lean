import Mathlib
import ComponentPack.Proofs.Build.Isolation
import ComponentPack.Proofs.Build.Reexport

/-!
A second pass. What a pass writes it finds again as it left it, an output that could not be written
cannot be written again, and no source is among the outputs: so a pass after a pass changes nothing.
-/

set_option autoImplicit false

namespace ComponentPack.Build

open Component Files Disk ComponentPack.Path Render List

section Tree

variable {area : Set Location} {disk : Disk} {emissions : List Emission}

theorem grows_emit (outputs : Outputs area disk emissions) (free : disk.LinkFree) :
    Grows area disk (emit disk emissions).2.1 := by
  induction emissions generalizing disk with
  | nil => exact .refl area disk
  | cons emission rest ih =>
    cases emission with
    | remark message => exact ih outputs.tail free
    | output path content =>
      obtain ⟨base, name, rfl, holds⟩ := outputs path content mem_cons_self
      have writes := writes_writeIfChanged free holds.opens holds.isName (Text.toBytes content)
      rw [emit]
      generalize disk.writeIfChanged _ _ = result at writes
      cases writes with
      | unchanged same => exact ih outputs.tail free
      | failed fault other => exact .refl area disk
      | written other clear vacant vacant' =>
        have inside : ({disk.placeOf base ++ [name],
            disk.placeOf base ++ [temporaryName name]} : Set Location) ⊆ area := by
          rintro l (rfl | rfl)
          · exact holds.output
          · exact holds.temporary
        have grown : Grows _ disk (disk.written base name (Text.toBytes content)) :=
          grows_written holds.opens holds.isName clear vacant vacant'
        have grows := grown.mono inside
        have confined := @confined_written disk base name (Text.toBytes content) vacant vacant'
        exact grows.trans (ih (outputs.tail.transfer (confined.agree (Set.disjoint_empty _)))
          (grows.free free))

theorem grows_emitAll {options : Options} {imports : ImportSet} {staged : List Staged}
    (placed : ∀ s ∈ staged, Placed disk s.component.path) (free : disk.LinkFree) :
    Grows (areas disk staged) disk (emitAll options imports disk staged).2.1 := by
  induction staged generalizing disk with
  | nil => exact .refl _ disk
  | cons first rest ih =>
    have outputs := @outputs_emissions disk options imports first (placed first mem_cons_self)
    have grows := grows_emit outputs free
    obtain ⟨-, -, confined⟩ := emit_local outputs (.refl _ disk) free free
    have unseen := confined.agree (Set.disjoint_empty _)
    have later := ih (fun s member =>
      (placed s (mem_cons_of_mem first member)).transfer unseen)
      (grows.free free)
    refine (grows.mono ?_).trans (later.mono ?_)
    · exact fun l inside => ⟨first, mem_cons_self, inside⟩
    · rintro l ⟨s, member, inside⟩
      rw [areaOf, grows.placeOf_eq] at inside
      exact ⟨s, mem_cons_of_mem first member, inside⟩

end Tree

/-- What comes of emissions that have been made before. -/
def unchangedAll (outcomes : List WriteOutcome) : List WriteOutcome :=
  outcomes.map fun _ => .unchanged

section Emission

variable {area : Set Location} {disk : Disk} {emissions : List Emission}

/-- Emissions that are made again find their outputs, up to the one that failed. -/
theorem emit_again (outputs : Outputs area disk emissions) (separate : Separate disk emissions)
    (free : disk.LinkFree) :
    (emit (emit disk emissions).2.1 emissions).1 = (emit disk emissions).1.map unchangedAll ∧
      (emit (emit disk emissions).2.1 emissions).2.1 = (emit disk emissions).2.1 := by
  induction emissions generalizing disk with
  | nil => exact ⟨rfl, rfl⟩
  | cons emission rest ih =>
    cases emission with
    | remark message => exact ih outputs.tail (pairwise_cons.mp separate).2 free
    | output path content =>
      obtain ⟨base, name, rfl, holds⟩ := outputs path content mem_cons_self
      have writes := writes_writeIfChanged free holds.opens holds.isName (Text.toBytes content)
      cases wrote : disk.writeIfChanged (base.join ⟨name⟩) (Text.toBytes content) with
      | mk result after =>
        rw [wrote] at writes
        cases result with
        | error fault =>
          -- The disk is as it was, so the same output fails again.
          cases writes
          simp only [emit, wrote]
          exact ⟨rfl, trivial⟩
        | ok outcome =>
          obtain ⟨confined, -, known⟩ := writes.of_ok free holds.opens holds.isName
          have unseen := confined.agree (Set.disjoint_empty _)
          have free' := confined.free free
          have tail := outputs.tail.transfer unseen
          have later := separate.transfer confined.home
          obtain ⟨-, kept⟩ := emit_keeps tail free' (holds.transfer unseen) later.disjoint_cells
          obtain ⟨same, still⟩ := ih tail (pairwise_cons.mp later).2 free'
          have again := writeIfChanged_of_read (kept.trans known)
          simp only [emit, wrote, again, same, still, and_true]
          cases (emit after rest).1 <;> rfl

end Emission

section Pass

variable {options : Options} {imports : ImportSet} {answer : Path → Compiler.Artifact}
  {disk after : Disk} {directory : Path} {paths : List Path} {staged : List Staged}

theorem Emitted.grows (emitted : Emitted options imports disk staged after)
    (apart : Apart disk staged) (free : disk.LinkFree) : Grows (areas disk staged) disk after := by
  rw [emitted.unique (emitted_emitAll apart free)]
  exact grows_emitAll apart.placed free

theorem not_isSource_of_mem_areas {l : Location} (inside : l ∈ areas disk staged) :
    ¬ IsSource l := by
  obtain ⟨s, -, here⟩ := inside
  exact fun source => not_mem_footprint source _ here

/-- The outputs of a pass are no components. -/
theorem Emitted.discovered (emitted : Emitted options imports disk staged after)
    (apart : Apart disk staged) (tree : disk.IsTree) (free : disk.LinkFree)
    (found : Discovered disk directory paths) : Discovered after directory paths := by
  refine found.grown tree (emitted.grows apart free) (fun _ => not_isSource_of_mem_areas) ?_
  intro names there
  rw [(emitted.grows apart free).placeOf_eq, emitted.confined.directory] at there
  exact found.openable names there

theorem Emitted.readText_eq (emitted : Emitted options imports disk staged after)
    (tree : disk.IsTree) (free : disk.LinkFree) (found : Discovered disk directory paths)
    {path : Path} (listed : path ∈ paths) : after.readText path = disk.readText path := by
  have placed := found.placed tree listed
  have outside : Disjoint (areas disk staged) {disk.placeOf path} := by
    rw [Set.disjoint_singleton_right]
    exact fun inside => not_isSource_of_mem_areas inside placed.isSource
  exact placed.readText_eq free (emitted.confined.free free) (emitted.confined.agree outside) rfl

theorem Emitted.judge_eq (emitted : Emitted options imports disk staged after)
    (tree : disk.IsTree) (free : disk.LinkFree) (found : Discovered disk directory paths)
    {path : Path} (listed : path ∈ paths) (mode : Mode) :
    check after path = check disk path ∧
      judge mode answer after path = judge mode answer disk path := by
  have checked : check after path = check disk path := by
    rw [check, check, emitted.readText_eq tree free found listed]
  exact ⟨checked, by rw [judge, judge, checked]⟩

theorem Emitted.stagedBy_eq (emitted : Emitted options imports disk staged after)
    (tree : disk.IsTree) (free : disk.LinkFree) (found : Discovered disk directory paths)
    {mode : Mode} : stagedBy mode answer after paths = stagedBy mode answer disk paths := by
  rw [stagedBy, stagedBy, split_congr fun path listed =>
    (emitted.judge_eq tree free found listed mode).2]

theorem Emitted.solo_again (emitted : Emitted options imports disk staged after)
    (apart : Apart disk staged) (free : disk.LinkFree) {s : Staged} (member : s ∈ staged) :
    (solo options imports after s).1 = (solo options imports disk s).1.map unchangedAll ∧
      Agree (areaOf disk s) (solo options imports after s).2 after := by
  have placed := apart.placed s member
  have outputs := @outputs_emissions disk options imports s placed
  have agree := emitted.agree s member
  obtain ⟨-, -, confined⟩ := emit_local outputs (.refl _ disk) free free
  have unseen := confined.agree (Set.disjoint_empty _)
  obtain ⟨same, still⟩ := emit_again outputs (separate_emissions placed) free
  obtain ⟨result, left, -⟩ := emit_local (outputs.transfer unseen) agree (confined.free free)
    (emitted.confined.free free)
  refine ⟨result.symm.trans same, ?_⟩
  rw [still] at left
  exact left.symm.trans agree

theorem Emitted.settle_again {path : Path}
    (emitted : Emitted options imports disk (stagedBy options.mode answer disk paths) after)
    (tree : disk.IsTree) (free : disk.LinkFree) (found : Discovered disk directory paths)
    (listed : path ∈ paths) :
    settle options answer imports after path =
      (settle options answer imports disk path).map unchangedAll := by
  have apart := apart_of_discovered found tree options.mode answer
  rw [settle, settle, (emitted.judge_eq tree free found listed options.mode).2]
  cases judged : judge options.mode answer disk path with
  | error failure => rfl
  | ok s =>
    have member : s ∈ stagedBy options.mode answer disk paths :=
      mem_split_fst.mpr (mem_map.mpr ⟨path, listed, judged⟩)
    simp only [(emitted.solo_again apart free member).1]
    cases (solo options imports disk s).1 <;> rfl

theorem split_map_ok {α β ε : Type} (results : List (Except ε α)) (f : α → β) :
    split (results.map (Except.map f)) = ((split results).1.map f, (split results).2) := by
  induction results with
  | nil => rfl
  | cons result results ih => cases result <;> simp [split, Except.map, ih]

theorem count_unchangedAll (outcomes : List (List WriteOutcome)) :
    (outcomes.map unchangedAll).flatten.count .written = 0 ∧
      (outcomes.map unchangedAll).flatten.count .unchanged = outcomes.flatten.length := by
  have all : (outcomes.map unchangedAll).flatten =
      List.replicate outcomes.flatten.length .unchanged := by
    induction outcomes with
    | nil => rfl
    | cons first rest ih =>
      rw [map_cons, flatten_cons, flatten_cons, ih, length_append,
        replicate_add, unchangedAll, map_const']
  rw [all]
  exact ⟨by simp [count_replicate], by simp⟩

theorem reportOf_again
    (emitted : Emitted options (importsOf (stagedBy options.mode answer disk paths)) disk
      (stagedBy options.mode answer disk paths) after)
    (tree : disk.IsTree) (free : disk.LinkFree) (found : Discovered disk directory paths) :
    reportOf options answer after paths =
      { reportOf options answer disk paths with
        written := 0
        unchanged := (reportOf options answer disk paths).written +
          (reportOf options answer disk paths).unchanged } := by
  have results : split (paths.map (settle options answer
        (importsOf (stagedBy options.mode answer disk paths)) after)) =
      ((split (paths.map (settle options answer
          (importsOf (stagedBy options.mode answer disk paths)) disk))).1.map unchangedAll,
        (split (paths.map (settle options answer
          (importsOf (stagedBy options.mode answer disk paths)) disk))).2) := by
    rw [← split_map_ok, map_map]
    exact split_congr fun path listed => emitted.settle_again tree free found listed
  rw [reportOf, reportOf, emitted.stagedBy_eq tree free found, results]
  simp only [count_unchangedAll, count_written_add_count_unchanged]

/-- A compiler that answers a batch the same way each time, and touches no file. -/
structure IsFunction (compiler : Compiler) : Prop where
  leaves : LeavesFiles compiler
  result_eq : ∀ batch disk disk',
    (compiler.compile batch disk).result = (compiler.compile batch disk').result

theorem IsFunction.answered {compiler : Compiler} (function : IsFunction compiler)
    {components : List Checked} (answered : Answered compiler disk components answer)
    (other : Disk) : Answered compiler other components answer := by
  obtain ⟨compiled, compiles, answers⟩ := answered
  exact ⟨compiled, (function.result_eq _ other disk).trans compiles, answers⟩

theorem Emitted.again
    (emitted : Emitted options imports disk staged after) (apart : Apart disk staged)
    (free : disk.LinkFree) : Emitted options imports after staged after where
  confined := .refl _ after
  agree s member := by
    rw [areaOf, (emitted.grows apart free).placeOf_eq]
    exact (emitted.solo_again apart free member).2

end Pass

/-- A disk with one component. -/
def lone (content : ByteArray) : Disk where
  nodes := .ofList [(["vue"], .directory), (["vue", "a.vue"], .file content)]
  home := []

/-- A component with these messages and without a style sheet. -/
def loneText (messages : Text) : Text :=
  "<template/><script>export default \x7b\x7d</script><i18n>" ++ messages ++ "</i18n>"

def loneOptions : Options := { directory := .ofString "vue" }

theorem discover_lone (content : ByteArray) :
    (discover (lone content) loneOptions.directory).1 = .ok [.ofString "vue/a.vue"] := by
  cbv

theorem readText_lone (text : Text) :
    (lone (Text.toBytes text)).readText (.ofString "vue/a.vue") = .ok text := by
  have bytes (content : ByteArray) : (lone content).read (.ofString "vue/a.vue") = .ok content := by
    cbv
  exact readText_of_read (bytes _)

theorem check_of_readText {disk : Disk} {path : Path} {text style : Text}
    (read : disk.readText path = .ok text)
    (known : (checkText path text).toOption.map (·.sections.style) = some style) :
    ∃ component, check disk path = .ok component ∧ component.path = path ∧
      component.sections.style = style := by
  have named := @check_path disk path
  rw [check, read] at named ⊢
  dsimp only at named ⊢
  cases checked : checkText path text with
  | error e => simp [checked, Except.toOption] at known
  | ok component =>
    rw [checked] at known named
    exact ⟨component, rfl, named, Option.some.inj known⟩

theorem emit_lone (content : ByteArray) (text : Text) :
    (emit (lone content) [.output (.ofString "vue/a.vue.js") text]).1 = .ok [.written] := by
  cbv

theorem reportOf_lone {text : Text} (style : (checkText (.ofString "vue/a.vue") text).toOption.map
    (·.sections.style) = some []) (answer : Path → Compiler.Artifact) :
    reportOf loneOptions answer (lone (Text.toBytes text)) [.ofString "vue/a.vue"] =
      ⟨1, 1, 0, []⟩ := by
  obtain ⟨component, checked, path, style⟩ := check_of_readText (readText_lone text) style
  have settled (imports : ImportSet) :
      settle loneOptions answer imports (lone (Text.toBytes text)) (.ofString "vue/a.vue") =
        .ok [.written] := by
    have output : Source.outputPath (.ofString "vue/a.vue") "js" =
        .ofString "vue/a.vue.js" := by
      decide
    rw [settle, judge, checked]
    simp only [loneOptions, solo, emissions, style, isEmpty_nil, if_true, path, output,
      emit_lone]
    rfl
  simp [reportOf, settled, split, ComponentFailure.sort]

theorem build_lone {text : Text} (style : (checkText (.ofString "vue/a.vue") text).toOption.map
    (·.sections.style) = some []) (tree : (lone (Text.toBytes text)).IsTree)
    (free : (lone (Text.toBytes text)).LinkFree) :
    (build loneOptions (answering fun _ => .error []) (lone (Text.toBytes text))).result =
      .ok ⟨1, 1, 0, []⟩ := by
  have leaves : LeavesFiles (answering fun _ => .error []) := fun _ _ => rfl
  obtain ⟨result, -, -⟩ := @build_of_answered loneOptions _ (fun _ => .error []) _ _ tree free
    leaves (discover_lone _) (fun mode => by simp [loneOptions] at mode)
  rw [result, reportOf_lone style]

end ComponentPack.Build
