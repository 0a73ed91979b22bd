import ComponentPack.Proofs.Build.Staging

/-!
What a pass reports. Each component that has been found comes to one end: it fails before anything
is written, it fails while it is written, or it is emitted. The report is made of these ends alone.
-/

set_option autoImplicit false

namespace ComponentPack.Build

open Component Files Disk ComponentPack.Path Render List

section Split

variable {α β ε : Type}

/-- The items with an error, in order. -/
theorem map_split_snd {f : β → Except ε α} {origin : ε → β}
    (known : ∀ item e, f item = .error e → origin e = item) (items : List β) :
    (split (items.map f)).2.map origin = items.filter fun item => (f item).toOption.isNone := by
  induction items with
  | nil => rfl
  | cons item items ih =>
    rw [map_cons]
    cases result : f item with
    | ok a => simp [split, result, ih, Except.toOption]
    | error e => simp [split, result, ih, Except.toOption, known item e result]

theorem split_congr {f g : β → Except ε α} {items : List β}
    (same : ∀ item ∈ items, f item = g item) : split (items.map f) = split (items.map g) := by
  rw [map_congr_left same]

/-- Items with an error add nothing to the successes. -/
theorem split_filter_fst {f : β → Except ε α} {keep : β → Bool} {items : List β}
    (failing : ∀ item ∈ items, keep item = false → ∃ e, f item = .error e) :
    (split ((items.filter keep).map f)).1 = (split (items.map f)).1 := by
  induction items with
  | nil => rfl
  | cons item items ih =>
    rw [forall_mem_cons] at failing
    cases kept : keep item with
    | true =>
      rw [filter_cons_of_pos kept, map_cons, map_cons]
      cases f item <;> simp [split, ih failing.2]
    | false =>
      obtain ⟨e, result⟩ := failing.1 kept
      rw [filter_cons_of_neg (by simp [kept]), map_cons, result]
      exact ih failing.2

theorem split_filter_snd {f : β → Except ε α} {origin : ε → β}
    (known : ∀ item e, f item = .error e → origin e = item) (keep : β → Bool) (items : List β) :
    (split ((items.filter keep).map f)).2 =
      (split (items.map f)).2.filter fun e => keep (origin e) := by
  induction items with
  | nil => rfl
  | cons item items ih =>
    rw [map_cons]
    cases result : f item with
    | ok a =>
      cases kept : keep item <;> simp [kept, split, result, ih]
    | error e =>
      cases kept : keep item <;>
        simp [kept, split, result, ih, known item e result]

end Split

namespace ComponentFailure

theorem pairwise_sort (failures : List ComponentFailure) :
    (sort failures).Pairwise fun a b => a.path.le b.path = true :=
  pairwise_mergeSort (fun a b c => Path.le_trans a.path b.path c.path)
    (fun a b => Path.le_total a.path b.path) failures

theorem sort_perm (failures : List ComponentFailure) : (sort failures).Perm failures :=
  mergeSort_perm failures _

/-- No two failures are about the same component. -/
def Distinct (failures : List ComponentFailure) : Prop :=
  ∀ a ∈ failures, ∀ b ∈ failures, a.path.parts = b.path.parts → a = b

/-- Failures of different components have one order. -/
theorem eq_sort_of_perm {failures sorted : List ComponentFailure} (distinct : Distinct failures)
    (perm : sorted.Perm failures)
    (ascending : sorted.Pairwise fun a b => a.path.le b.path = true) : sorted = sort failures := by
  refine List.Perm.eq_of_pairwise (fun a b ha hb below above => ?_) ascending
    (pairwise_sort failures) (perm.trans (sort_perm failures).symm)
  exact distinct a (perm.mem_iff.mp ha) b ((sort_perm failures).mem_iff.mp hb)
    (parts_eq_of_le below above)

theorem sort_filter {failures : List ComponentFailure} (distinct : Distinct failures)
    (keep : ComponentFailure → Bool) :
    (sort failures).filter keep = sort (failures.filter keep) := by
  refine eq_sort_of_perm ?_ ((sort_perm failures).filter keep) ((pairwise_sort failures).filter keep)
  exact fun a ha b hb => distinct a (mem_filter.mp ha).1 b (mem_filter.mp hb).1

end ComponentFailure

/-- What a component comes to in a pass. -/
def settle (options : Options) (answer : Path → Compiler.Artifact) (imports : ImportSet)
    (disk : Disk) (path : Path) : Except ComponentFailure (List WriteOutcome) :=
  match judge options.mode answer disk path with
  | .error failure => .error failure
  | .ok staged => (solo options imports disk staged).1.mapError (ComponentFailure.mk path)

section Pass

variable {options : Options} {compiler : Compiler} {answer : Path → Compiler.Artifact}
  {imports : ImportSet} {disk : Disk} {paths : List Path}

theorem settle_path {path : Path} {failure : ComponentFailure}
    (failed : settle options answer imports disk path = .error failure) : failure.path = path := by
  have named := @judge_path disk options.mode answer path
  rw [settle] at failed
  cases judged : judge options.mode answer disk path with
  | error other =>
    rw [judged] at failed named
    rw [← Except.error.inj failed]
    exact named
  | ok staged =>
    rw [judged] at failed
    cases alone : (solo options imports disk staged).1 with
    | ok outcomes => simp [alone, Except.mapError] at failed
    | error e =>
      simp only [alone, Except.mapError, Except.error.injEq] at failed
      rw [← failed]

/-- Components fail before they are written, or later. -/
theorem split_settle (options : Options) (answer : Path → Compiler.Artifact) (imports : ImportSet)
    (disk : Disk) (paths : List Path) :
    let judged := split (paths.map (judge options.mode answer disk))
    let written := split (judged.1.map fun s =>
      (solo options imports disk s).1.mapError (ComponentFailure.mk s.component.path))
    (split (paths.map (settle options answer imports disk))).1 = written.1 ∧
      (judged.2 ++ written.2).Perm (split (paths.map (settle options answer imports disk))).2 := by
  induction paths with
  | nil => exact ⟨rfl, .refl _⟩
  | cons path paths ih =>
    have named := @judge_path disk options.mode answer path
    rw [map_cons, map_cons, settle]
    cases judged : judge options.mode answer disk path with
    | error failure =>
      simp only [split]
      exact ⟨ih.1, ih.2.cons failure⟩
    | ok staged =>
      rw [judged] at named
      simp only [split, map_cons, named]
      cases (solo options imports disk staged).1.mapError (ComponentFailure.mk path) with
      | ok outcomes => exact ⟨congrArg (outcomes :: ·) ih.1, ih.2⟩
      | error failure => exact ⟨ih.1, perm_middle.trans (ih.2.cons failure)⟩

theorem distinct_settle {directory : Path} (found : Discovered disk directory paths)
    (tree : disk.IsTree) :
    ComponentFailure.Distinct (split (paths.map (settle options answer imports disk))).2 := by
  intro a ha b hb same
  obtain ⟨path, listed, failed⟩ := mem_map.mp (mem_split_snd.mp ha)
  obtain ⟨path', listed', failed'⟩ := mem_map.mp (mem_split_snd.mp hb)
  rw [settle_path failed, settle_path failed'] at same
  rw [found.eq_of_parts tree listed listed' same, failed'] at failed
  exact Except.error.inj failed.symm

/-- The report of a pass by the ends of its components. -/
def reportOf (options : Options) (answer : Path → Compiler.Artifact) (disk : Disk)
    (paths : List Path) : Report :=
  let imports := importsOf (stagedBy options.mode answer disk paths)
  let results := split (paths.map (settle options answer imports disk))
  { components := paths.length
    written := results.1.flatten.count .written
    unchanged := results.1.flatten.count .unchanged
    failures := ComponentFailure.sort results.2 }

/-- A pass over components whose templates are all answered. -/
theorem build_of_answered (tree : disk.IsTree) (free : disk.LinkFree)
    (leaves : LeavesFiles compiler) (found : (discover disk options.directory).1 = .ok paths)
    (answered : options.mode = .release →
      Answered compiler disk (split (paths.map (check disk))).1 answer) :
    let staged := stagedBy options.mode answer disk paths
    (build options compiler disk).result = .ok (reportOf options answer disk paths) ∧
      Apart disk staged ∧
      Emitted options (importsOf staged) disk staged (build options compiler disk).disk := by
  have discovered := (discoverBy_eq_ok_iff tree free (.namesIn disk)).mp found
  have apart := apart_of_discovered discovered tree options.mode answer
  obtain ⟨failures, ready, failed⟩ := prepare_of_answered answered
  rcases build_of_discovered leaves found with
    ⟨e, broken, -, -⟩ | ⟨failures', staged, ready', result, after⟩
  · rw [ready] at broken
    simp at broken
  rw [ready, Except.ok.injEq, Prod.mk.injEq] at ready'
  obtain ⟨rfl, rfl⟩ := ready'
  refine ⟨?_, apart, ?_⟩
  · obtain ⟨results, -, -⟩ := @emitAll_spec disk options
      (importsOf (stagedBy options.mode answer disk paths)) _ apart free disk free
      fun s _ => .refl _ disk
    obtain ⟨done, broken⟩ := split_settle options answer
      (importsOf (stagedBy options.mode answer disk paths)) disk paths
    rw [result, results]
    simp only [summary, reportOf, done]
    congr 2
    have perm := (failed.append_right _).trans broken
    exact ComponentFailure.eq_sort_of_perm (distinct_settle discovered tree)
      ((ComponentFailure.sort_perm _).trans perm) (ComponentFailure.pairwise_sort _)
  · rw [after]
    exact emitted_emitAll apart free

end Pass

end ComponentPack.Build
