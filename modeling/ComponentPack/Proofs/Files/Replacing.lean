import ComponentPack.Proofs.Files.Locality

/-!
Writing an output, as a whole and step by step. The steps of different writers may be taken in any
order; a step does the same on all disks that agree in the area of the output.
-/

set_option autoImplicit false

namespace ComponentPack.Files.Disk

open ComponentPack.Path

variable {path : Path} {content : ByteArray}

variable {disk : Disk} {base : Path} {name : Text}

/-- The disk after an output has been written through its temporary sibling. -/
def written (disk : Disk) (base : Path) (name : Text) (content : ByteArray) : Disk :=
  ((disk.setNode (disk.placeOf base ++ [temporaryName name]) (.file content)).eraseNode
    (disk.placeOf base ++ [temporaryName name])).setNode (disk.placeOf base ++ [name])
    (.file content)

theorem node?_written (disk : Disk) (base : Path) (name : Text) (content : ByteArray)
    (l : Location) :
    (disk.written base name content).node? l =
      if disk.placeOf base ++ [name] = l then some (.file content)
      else if disk.placeOf base ++ [temporaryName name] = l then none
      else disk.node? l := by
  rw [written, node?_setNode _ (by simp), node?_eraseNode _ (by simp), node?_setNode _ (by simp)]
  split
  · rfl
  · split <;> rfl

/-- What comes of writing an output in a directory that is there. A write that fails changes
nothing: what would keep the temporary sibling from its place has been noticed before. -/
inductive Writes (disk : Disk) (base : Path) (name : Text) (content : ByteArray) :
    Except Fault WriteOutcome × Disk → Prop
  | unchanged (same : disk.read (base.join ⟨name⟩) = .ok content) :
    Writes disk base name content (.ok .unchanged, disk)
  | written (other : disk.read (base.join ⟨name⟩) ≠ .ok content)
    (clear : obstacle? (base.join ⟨name⟩) name = none)
    (vacant : disk.node? (disk.placeOf base ++ [name]) ≠ some .directory)
    (vacant' : disk.node? (disk.placeOf base ++ [temporaryName name]) ≠ some .directory) :
    Writes disk base name content (.ok .written, disk.written base name content)
  | failed (fault : Fault) (other : disk.read (base.join ⟨name⟩) ≠ .ok content) :
    Writes disk base name content (.error fault, disk)

theorem beq_bytes_iff {a b : ByteArray} : (a == b) = true ↔ a = b := by
  change (a.data == b.data) = true ↔ _
  rw [beq_iff_eq, ByteArray.ext_iff]

theorem isOk_of_needsWrite {needed : Bool} (compared : disk.needsWrite path content = .ok needed) :
    (needed = false ∧ disk.read path = .ok content) ∨
      (needed = true ∧ disk.read path ≠ .ok content ∧
        ∀ fault, disk.read path = .error fault → fault = .notFound) := by
  rw [needsWrite] at compared
  cases found : disk.read path with
  | ok existing =>
    rw [found] at compared
    simp only [Except.ok.injEq] at compared
    by_cases same : existing = content
    · exact .inl ⟨by simp [← compared, bne, beq_bytes_iff.mpr same], by rw [same]⟩
    · have differ : (existing == content) = false := by
        rw [Bool.eq_false_iff, Ne, beq_bytes_iff]
        exact same
      exact .inr ⟨by simp [← compared, bne, differ], by simpa using same, by simp⟩
  | error fault =>
    rw [found] at compared
    cases fault <;> simp_all

theorem clear_of_read (free : disk.LinkFree) (opens : disk.OpensPath base) (h : IsName name)
    (missing : ∀ fault, disk.read (base.join ⟨name⟩) = .error fault → fault = .notFound) :
    obstacle? (base.join ⟨name⟩) name = none ∧
      disk.node? (disk.placeOf base ++ [name]) ≠ some .directory := by
  rw [read_join free opens h] at missing
  cases blocked : obstacle? (base.join ⟨name⟩) name with
  | some fault =>
    have absent : fault = .notFound := missing fault (by rw [blocked])
    rw [absent, obstacle?] at blocked
    split at blocked
    · next refused =>
      rw [Option.some.injEq] at blocked
      exact absurd (blocked ▸ refused) (refusal?_ne_notFound (join_text_ne_nil base h))
    · split at blocked <;> simp at blocked
  | none =>
    refine ⟨rfl, fun directory => ?_⟩
    have := missing .isDirectory (by rw [blocked, directory]; rfl)
    simp at this

/-- A temporary sibling that could be written is moved into place, unless that is blocked. -/
theorem rename_stored (free : disk.LinkFree) (opens : disk.OpensPath base) (h : IsName name)
    {stored : Disk} (wrote : disk.write (temporary (base.join ⟨name⟩)) content = .ok stored) :
    disk.node? (disk.placeOf base ++ [temporaryName name]) ≠ some .directory ∧
      stored.rename (temporary (base.join ⟨name⟩)) (base.join ⟨name⟩) =
        match obstacle? (base.join ⟨name⟩) name with
        | some fault => .error fault
        | none =>
          if disk.node? (disk.placeOf base ++ [name]) = some .directory then .error .isDirectory
          else .ok (disk.written base name content) := by
  rw [write_temporary free opens h] at wrote
  split at wrote
  · simp at wrote
  · next unblocked =>
    split at wrote
    · simp at wrote
    · next vacant =>
      obtain rfl := Except.ok.inj wrote
      have change : Confined Set.univ disk
          (disk.setNode (disk.placeOf base ++ [temporaryName name]) (.file content)) :=
        .setNode (Set.mem_univ _) (by simp) vacant (by simp) (by simp)
      have there := (node?_setNode disk (by simp) (.file content)
        (disk.placeOf base ++ [temporaryName name])).trans (if_pos rfl)
      have renamed := rename_temporary (change.free free)
        (opens.mono change.home fun l => (change.directory l).mpr) h
      rw [placeOf_eq change.home, there, unblocked] at renamed
      simp only [change.directory] at renamed
      exact ⟨vacant, renamed⟩

theorem writes_writeIfChanged (free : disk.LinkFree) (opens : disk.OpensPath base)
    (h : IsName name) (content : ByteArray) :
    Writes disk base name content (disk.writeIfChanged (base.join ⟨name⟩) content) := by
  rw [writeIfChanged]
  cases compared : disk.needsWrite (base.join ⟨name⟩) content with
  | error fault =>
    refine .failed fault fun same => ?_
    simp [needsWrite, same] at compared
  | ok needed =>
    rcases isOk_of_needsWrite compared with ⟨rfl, same⟩ | ⟨rfl, other, missing⟩
    · exact .unchanged same
    · obtain ⟨clear, vacant⟩ := clear_of_read free opens h missing
      simp only [replace, createParent_join free opens h]
      cases parentResult base with
      | error fault => exact .failed fault other
      | ok _ =>
        cases wrote : disk.write (temporary (base.join ⟨name⟩)) content with
        | error fault =>
          simp only [wrote]
          exact .failed fault other
        | ok stored =>
          obtain ⟨vacant', renamed⟩ := rename_stored free opens h wrote
          simp only [wrote, commit, renamed, clear, if_neg vacant]
          exact .written other clear vacant vacant'

theorem node?_of_read (free : disk.LinkFree) (opens : disk.OpensPath base) (h : IsName name)
    (same : disk.read (base.join ⟨name⟩) = .ok content) :
    disk.node? (disk.placeOf base ++ [name]) = some (.file content) := by
  rw [read_join free opens h] at same
  split at same
  · simp at same
  · cases found : disk.node? (disk.placeOf base ++ [name]) with
    | none => simp [found, contentOf] at same
    | some node => cases node <;> simp_all [contentOf]

theorem confined_written {content : ByteArray}
    (vacant : disk.node? (disk.placeOf base ++ [name]) ≠ some .directory)
    (vacant' : disk.node? (disk.placeOf base ++ [temporaryName name]) ≠ some .directory) :
    Confined {disk.placeOf base ++ [name], disk.placeOf base ++ [temporaryName name]} disk
      (disk.written base name content) := by
  have stored : Confined {disk.placeOf base ++ [name], disk.placeOf base ++ [temporaryName name]}
      disk (disk.setNode (disk.placeOf base ++ [temporaryName name]) (.file content)) :=
    .setNode (.inr rfl) (by simp) vacant' (by simp) (by simp)
  have erased := stored.trans (.eraseNode (.inr rfl) (by simp)
    (mt (stored.directory (disk.placeOf base ++ [temporaryName name])).mp vacant'))
  exact erased.trans (.setNode (.inl rfl) (by simp) (mt (erased.directory _).mp vacant) (by simp)
    (by simp))

theorem writeIfChanged_of_read (same : disk.read path = .ok content) :
    disk.writeIfChanged path content = (.ok .unchanged, disk) := by
  have equal : (content != content) = false := by
    rw [bne, beq_bytes_iff.mpr rfl]
    rfl
  rw [writeIfChanged, needsWrite, same]
  simp only [equal]

theorem node?_written_output (disk : Disk) (base : Path) (name : Text) (content : ByteArray) :
    (disk.written base name content).node? (disk.placeOf base ++ [name]) =
      some (.file content) := by
  rw [node?_written, if_pos rfl]

theorem read_written (free : disk.LinkFree) (opens : disk.OpensPath base) (h : IsName name)
    (clear : obstacle? (base.join ⟨name⟩) name = none)
    (vacant : disk.node? (disk.placeOf base ++ [name]) ≠ some .directory)
    (vacant' : disk.node? (disk.placeOf base ++ [temporaryName name]) ≠ some .directory) :
    (disk.written base name content).read (base.join ⟨name⟩) = .ok content := by
  have confined := @confined_written disk base name content vacant vacant'
  rw [read_join (confined.free free)
    (opens.mono confined.home fun l => (confined.directory l).mpr) h, clear,
    placeOf_eq confined.home, node?_written_output]
  rfl

/-- After a write that succeeds the file holds the content, and nothing else has changed. -/
theorem Writes.of_ok {outcome : WriteOutcome} {after : Disk} (free : disk.LinkFree)
    (opens : disk.OpensPath base) (h : IsName name)
    (writes : Writes disk base name content (.ok outcome, after)) :
    Confined {disk.placeOf base ++ [name], disk.placeOf base ++ [temporaryName name]} disk after ∧
      after.node? (disk.placeOf base ++ [name]) = some (.file content) ∧
      after.read (base.join ⟨name⟩) = .ok content := by
  cases writes with
  | unchanged same => exact ⟨.refl _ disk, node?_of_read free opens h same, same⟩
  | written other clear vacant vacant' =>
    exact ⟨confined_written vacant vacant', node?_written_output disk base name content,
      read_written free opens h clear vacant vacant'⟩

theorem placeOf_temporary (disk : Disk) (base : Path) (h : IsName name) :
    disk.placeOf (temporary (base.join ⟨name⟩)) = disk.placeOf base ++ [temporaryName name] := by
  rw [temporary_eq base h, placeOf_join disk _ (isName_temporaryName h), placeOf_bare]

/-- An output and its temporary sibling. -/
def cell (disk : Disk) (path : Path) : Set Location :=
  {disk.placeOf path, disk.placeOf (temporary path)}

theorem cell_join (disk : Disk) (base : Path) (h : IsName name) :
    cell disk (base.join ⟨name⟩) =
      {disk.placeOf base ++ [name], disk.placeOf base ++ [temporaryName name]} := by
  rw [cell, placeOf_join disk base h, placeOf_temporary disk base h]

theorem cell_eq {other : Disk} (home : other.home = disk.home) (path : Path) :
    cell other path = cell disk path := by
  rw [cell, cell, placeOf_eq home, placeOf_eq home]

/-- How far the writing of an output has come. -/
inductive Stage where
  /-- The file is compared with the content. -/
  | compare
  /-- The directory is created. -/
  | prepare
  /-- The content is written to the temporary sibling. -/
  | store
  /-- The temporary sibling is moved into place. -/
  | move
  /-- The temporary sibling could not be moved and is removed. -/
  | discard (fault : Fault)

namespace Stage

/-- Takes one step: there is another one, or the outcome is known. -/
def step (disk : Disk) (path : Path) (content : ByteArray) :
    Stage → (Stage ⊕ Except Fault WriteOutcome) × Disk
  | compare =>
    match disk.needsWrite path content with
    | .error e => (.inr (.error e), disk)
    | .ok false => (.inr (.ok .unchanged), disk)
    | .ok true => (.inl prepare, disk)
  | prepare =>
    match disk.createParent path with
    | (.error e, disk) => (.inr (.error e), disk)
    | (.ok (), disk) => (.inl store, disk)
  | store =>
    match disk.write (temporary path) content with
    | .error e => (.inr (.error e), disk)
    | .ok disk => (.inl move, disk)
  | move =>
    match disk.rename (temporary path) path with
    | .error e => (.inl (discard e), disk)
    | .ok disk => (.inr (.ok .written), disk)
  | discard e => (.inr (.error e), (disk.removeFile (temporary path)).toOption.getD disk)

/-- The outcome of a replacement. -/
def outcomeOf : Except Fault Unit × Disk → Except Fault WriteOutcome × Disk
  | (.ok (), disk) => (.ok .written, disk)
  | (.error e, disk) => (.error e, disk)

/-- Takes all steps that are left, with no other writer in between. -/
def complete (disk : Disk) (path : Path) (content : ByteArray) :
    Stage → Except Fault WriteOutcome × Disk
  | compare => disk.writeIfChanged path content
  | prepare => outcomeOf (disk.replace path content)
  | store =>
    match disk.write (temporary path) content with
    | .error e => (.error e, disk)
    | .ok disk => outcomeOf (disk.commit path)
  | move => outcomeOf (disk.commit path)
  | discard e => (.error e, (disk.removeFile (temporary path)).toOption.getD disk)

theorem complete_eq (disk : Disk) (path : Path) (content : ByteArray) (stage : Stage) :
    stage.complete disk path content =
      match stage.step disk path content with
      | (.inl next, disk) => next.complete disk path content
      | (.inr result, disk) => (result, disk) := by
  cases stage with
  | compare =>
    rw [complete, step, writeIfChanged]
    cases disk.needsWrite path content with
    | error e => rfl
    | ok needed =>
      cases needed with
      | false => rfl
      | true =>
        simp only [complete]
        cases disk.replace path content with
        | mk result disk => cases result <;> rfl
  | prepare =>
    rw [complete, step, replace]
    cases disk.createParent path with
    | mk result disk =>
      cases result with
      | error e => rfl
      | ok _ =>
        simp only [complete]
        cases disk.write (temporary path) content <;> rfl
  | store =>
    rw [complete, step]
    cases disk.write (temporary path) content <;> rfl
  | move =>
    rw [complete, step, commit]
    cases disk.rename (temporary path) path <;> rfl
  | discard e => rfl

/-- The greatest number of steps after this one. -/
def rank : Stage → Nat
  | compare => 4
  | prepare => 3
  | store => 2
  | move => 1
  | discard _ => 0

theorem rank_lt_of_step {disk after : Disk} {stage next : Stage}
    (stepped : stage.step disk path content = (.inl next, after)) : next.rank < stage.rank := by
  cases stage <;> rw [step] at stepped <;> try split at stepped
  all_goals
    simp only [Prod.mk.injEq, Sum.inl.injEq, reduceCtorEq, false_and] at stepped
  all_goals
    rw [← stepped.1]
    simp [rank]

/-- The content is in the temporary sibling when that is moved or removed. -/
def Stored (disk : Disk) (path : Path) (content : ByteArray) : Stage → Prop
  | move | discard _ => disk.node? (disk.placeOf (temporary path)) = some (.file content)
  | compare | prepare | store => True

theorem stored_of_write {a a' : Disk} {content : ByteArray} (free : a.LinkFree)
    (opens : a.OpensPath base) (h : IsName name)
    (wrote : a.write (temporary (base.join ⟨name⟩)) content = .ok a') :
    move.Stored a' (base.join ⟨name⟩) content := by
  rw [write_temporary free opens h] at wrote
  split at wrote
  · simp at wrote
  · split at wrote
    · simp at wrote
    · rw [← Except.ok.inj wrote, Stored, placeOf_temporary _ base h, placeOf_eq (home_setNode _ _ _),
        node?_setNode _ (by simp), if_pos rfl]

/-- A step does the same on disks that agree in an area with the output. -/
theorem step_local {area : Set Location} {a b : Disk} {stage : Stage} (h : Holds area a base name)
    (stored : stage.Stored a (base.join ⟨name⟩) content) (agree : Agree area a b) (ha : a.LinkFree)
    (hb : b.LinkFree) :
    ∃ result a' b', stage.step a (base.join ⟨name⟩) content = (result, a') ∧
      stage.step b (base.join ⟨name⟩) content = (result, b') ∧ Agree area a' b' ∧
      Confined area a a' ∧ ∀ next, result = .inl next → next.Stored a' (base.join ⟨name⟩) content := by
  cases stage with
  | compare =>
    rw [step, step, h.needsWrite_eq agree ha hb]
    cases a.needsWrite (base.join ⟨name⟩) content with
    | error e => exact ⟨_, _, _, rfl, rfl, agree, .refl area a, by simp⟩
    | ok needed =>
      cases needed with
      | false => exact ⟨_, _, _, rfl, rfl, agree, .refl area a, by simp⟩
      | true => exact ⟨_, _, _, rfl, rfl, agree, .refl area a, by simp [Stored]⟩
  | prepare =>
    rw [step, step, h.createParent_eq ha, (h.transfer agree).createParent_eq hb]
    cases parentResult base with
    | error e => exact ⟨_, _, _, rfl, rfl, agree, .refl area a, by simp⟩
    | ok _ => exact ⟨_, _, _, rfl, rfl, agree, .refl area a, by simp [Stored]⟩
  | store =>
    have alike := h.write_temporary agree ha hb content
    have known (a' : Disk) := @stored_of_write base name a a' content ha h.opens h.isName
    rw [step, step]
    generalize a.write _ _ = first, b.write _ _ = second at alike known
    cases alike with
    | fault e => exact ⟨_, _, _, rfl, rfl, agree, .refl area a, by simp⟩
    | done agree' confined =>
      refine ⟨_, _, _, rfl, rfl, agree', confined, fun next same => ?_⟩
      rw [← Sum.inl.inj same]
      exact known _ rfl
  | move =>
    have there := stored
    rw [Stored, placeOf_temporary a base h.isName] at there
    have alike := h.rename_temporary agree ha hb there
    rw [step, step]
    generalize a.rename _ _ = first, b.rename _ _ = second at alike
    cases alike with
    | fault e =>
      refine ⟨_, _, _, rfl, rfl, agree, .refl area a, fun next same => ?_⟩
      rw [← Sum.inl.inj same]
      exact stored
    | done agree' confined => exact ⟨_, _, _, rfl, rfl, agree', confined, by simp⟩
  | discard e =>
    rw [Stored, placeOf_temporary a base h.isName] at stored
    have alike := h.removeFile_temporary agree ha hb stored
    rw [step, step]
    generalize a.removeFile _ = first, b.removeFile _ = second at alike
    cases alike with
    | fault e => exact ⟨_, _, _, rfl, rfl, agree, .refl area a, by simp⟩
    | done agree' confined => exact ⟨_, _, _, rfl, rfl, agree', confined, by simp⟩

end Stage

end ComponentPack.Files.Disk
