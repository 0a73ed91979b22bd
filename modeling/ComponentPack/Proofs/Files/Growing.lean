import ComponentPack.Proofs.Files.Replacing
import ComponentPack.Proofs.Files.Walking
import Mathlib.Data.List.TakeWhile

/-!
How a disk grows. To write a file, the directories on the way to it are made as far as they are
missing. Otherwise only the file changes and, for a time, its temporary sibling; so a tree stays a
tree, and what was read elsewhere is still read.
-/

set_option autoImplicit false

namespace ComponentPack.Files.Disk

open ComponentPack.Path List

variable {path : Path} {l : Location} {content : ByteArray} {name : Text} {disk after : Disk}
  {purpose : Purpose} {found : Found}

/-- A disk and what becomes of it when files in an area are written: elsewhere, directories are made
where nothing was. -/
structure Grows (area : Set Location) (before after : Disk) : Prop where
  home : after.home = before.home
  directory : ∀ l, before.node? l = some .directory → after.node? l = some .directory
  outside : ∀ l ∉ area, after.node? l = before.node? l ∨
    before.node? l = none ∧ after.node? l = some .directory
  free : before.LinkFree → after.LinkFree
  tree : before.IsTree → after.IsTree

namespace Grows

variable {area : Set Location} {a b c : Disk}

theorem refl (area : Set Location) (a : Disk) : Grows area a a :=
  ⟨rfl, fun _ => id, fun _ _ => .inl rfl, id, id⟩

theorem trans (hab : Grows area a b) (hbc : Grows area b c) : Grows area a c where
  home := hbc.home.trans hab.home
  directory l there := hbc.directory l (hab.directory l there)
  outside l out := by
    rcases hab.outside l out with first | ⟨missing, made⟩
    · rw [← first]
      exact hbc.outside l out
    · exact .inr ⟨missing, hbc.directory l made⟩
  free free := hbc.free (hab.free free)
  tree tree := hbc.tree (hab.tree tree)

theorem mono {larger : Set Location} (h : Grows area a b) (subset : area ⊆ larger) :
    Grows larger a b :=
  ⟨h.home, h.directory, fun l out => h.outside l fun inside => out (subset inside), h.free, h.tree⟩

theorem opensPath (h : Grows area a b) (opens : a.OpensPath path) : b.OpensPath path :=
  opens.mono h.home h.directory

theorem placeOf_eq (h : Grows area a b) (path : Path) : b.placeOf path = a.placeOf path :=
  Disk.placeOf_eq h.home path

theorem keeps (h : Grows area a b)
    (plain : ∀ l ∈ area, ∀ target, a.node? l ≠ some (.link target)) : Keeps a b where
  home := h.home
  node l node other there := by
    cases node with
    | file content => exact absurd rfl (other content)
    | directory => exact h.directory l there
    | link target =>
      rcases h.outside l fun inside => plain l inside target there with same | ⟨missing, -⟩
      · exact same.trans there
      · simp [there] at missing

/-- Files outside of the area are kept, and none are new there. -/
theorem file_iff (h : Grows area a b) (out : l ∉ area) :
    b.node? l = some (.file content) ↔ a.node? l = some (.file content) := by
  rcases h.outside l out with same | ⟨missing, made⟩
  · rw [same]
  · simp [missing, made]

/-- A file outside of the area is read as before. -/
theorem read_eq (h : Grows area a b) (free : a.LinkFree) {base : Path} (named : IsName name)
    (opens : a.OpensPath base) (out : a.placeOf base ++ [name] ∉ area)
    (there : a.node? (a.placeOf base ++ [name]) = some (.file content)) :
    b.read (base.join ⟨name⟩) = a.read (base.join ⟨name⟩) := by
  rw [read_join free opens named, read_join (h.free free) (h.opensPath opens) named, h.placeOf_eq,
    (h.file_iff out).mpr there, there]

/-- A change in an area that only adds names of files to directories. -/
theorem of_confined (confined : Confined area a b)
    (known : ∀ l name, b.node? (l ++ [name]) ≠ none →
      IsFileName name ∧ a.node? l = some .directory ∨ a.node? (l ++ [name]) ≠ none) :
    Grows area a b where
  home := confined.home
  directory l := (confined.directory l).mpr
  outside l out := .inl (confined.outside l out)
  free := confined.free
  tree tree :=
    { root := confined.root.trans tree.root
      isFileName := fun l name present =>
        (known l name present).elim And.left (tree.isFileName l name)
      parent := fun l name present =>
        (confined.directory l).mpr ((known l name present).elim And.right (tree.parent l name)) }

end Grows

theorem mem_namesOf (member : name ∈ namesOf path) :
    name ≠ [] ∧ '/' ∉ name ∧ ∀ c ∈ name, c ∈ path.text := by
  obtain ⟨piece, filled⟩ := mem_filter.mp member
  exact ⟨by simpa using filled, Text.not_mem_of_mem_splitAll piece,
    Text.subset_of_mem_splitAll piece⟩

/-- What stands after the last slash of a path. -/
theorem exists_last_name (filled : path.text ≠ []) (bare : endsInSlash path = false) :
    ∃ base : Path, ∃ last, last ≠ [] ∧ '/' ∉ last ∧ namesOf path = namesOf base ++ [last] ∧
      (IsName last → path = base.join ⟨last⟩) := by
  by_cases slash : '/' ∈ path.text
  · obtain ⟨tail, front, split, absent⟩ :=
      eq_append_cons_of_mem (mem_reverse.mpr slash)
    have text : path.text = front.reverse ++ '/' :: tail.reverse := by
      simpa using congrArg List.reverse split
    have last : tail.reverse ≠ [] := fun empty => by
      simp [endsInSlash, text, empty] at bare
    have inside : '/' ∉ tail.reverse := by simpa using absent
    refine ⟨⟨front.reverse ++ ['/']⟩, tail.reverse, last, inside, ?_, fun h => ?_⟩
    · rw [namesOf, namesOf, text, Text.splitAll_append, Text.splitAll_append,
        Text.splitAll_of_not_mem inside, filter_append, filter_append]
      simpa [Text.splitAll] using last
    · rw [join_of_slash h (by simp)]
      simp [← text]
  · refine ⟨⟨[]⟩, path.text, filled, slash, ?_, fun _ => (join_of_nil rfl _).symm⟩
    rw [namesOf, Text.splitAll_of_not_mem slash]
    simp [filled, namesOf, Text.splitAll]

theorem IsTree.dropLast (tree : disk.IsTree) (directory : disk.node? l = some .directory) :
    disk.node? l.dropLast = some .directory := by
  rcases eq_nil_or_concat l with rfl | ⟨above, name, rfl⟩
  · exact directory
  · rw [concat_eq_append] at directory ⊢
    rw [dropLast_concat]
    exact tree.parent above name (by simp [directory])

/-- Behind a path that does not lead to a directory there is a name. -/
theorem exists_join (tree : disk.IsTree) (resolved : disk.resolve purpose path = .ok found)
    (bare : endsInSlash path = false) (other : ∀ l, found ≠ .present l .directory) :
    ∃ base : Path, ∃ name, IsName name ∧ path = base.join ⟨name⟩ := by
  obtain ⟨accepted, leads⟩ := resolve_eq_ok_iff.mp resolved
  obtain ⟨base, last, filled, slash, names, join⟩ :=
    exists_last_name (refusal?_eq_none_iff.mp accepted).2.1 bare
  rw [bare, names] at leads
  obtain ⟨l, left, reaches, step⟩ := leads.split (cons_ne_nil last [])
  have proper (dots : last = ['.'] ∨ last = ['.', '.']) : False := by
    cases step with
    | dots directory dots later =>
      cases later with
      | here there =>
        have upper : disk.node? (enter l last) = some .directory := by
          rcases dots with rfl | rfl
          · exact directory
          · exact tree.dropLast directory
        exact other _ (by rw [Option.some.inj (there.symm.trans upper)])
    | name asks | absent asks | entry asks | link asks => exact dots.elim asks.dot asks.up
  have h : IsName last := ⟨filled, slash, proper ∘ .inl, proper ∘ .inr⟩
  exact ⟨base, last, h, join h⟩

theorem endsInSlash_of_resolve (resolved : disk.resolve purpose path = .ok found)
    (other : ∀ l, found ≠ .present l .directory)
    (creates : purpose = .creation ∨ ∀ l, found ≠ .absent l) : endsInSlash path = false := by
  by_contra slash
  rcases (resolve_eq_ok_iff.mp resolved).2.of_asDirectory (by simpa using slash) with
    ⟨l, directory⟩ | ⟨safe, l, absent⟩
  · exact other l directory
  · exact creates.elim safe fun present => present l absent

theorem entry_of_resolve (tree : disk.IsTree) (resolved : disk.resolve purpose path = .ok found)
    (bare : endsInSlash path = false) (other : ∀ l, found ≠ .present l .directory) :
    ∃ l, disk.Entry path l ∧ (found = disk.foundAt l ∨
      purpose ≠ .entry ∧ ∃ target, disk.node? l = some (.link target)) := by
  obtain ⟨base, name, h, rfl⟩ := exists_join tree resolved bare other
  obtain ⟨above, -, entry⟩ := of_resolve_join_eq_ok h resolved
  exact ⟨above ++ [name], entry⟩

theorem endsInSlash_withoutFinalSlashes (path : Path) :
    endsInSlash (withoutFinalSlashes path) = false ∨ namesOf (withoutFinalSlashes path) = [] := by
  rw [withoutFinalSlashes]
  cases front : path.text.reverse.dropWhile (· = '/') with
  | nil =>
    right
    have only : ∀ c ∈ path.text, c = '/' := by simpa [dropWhile_eq_nil_iff] using front
    refine eq_nil_iff_forall_not_mem.mpr fun name member => ?_
    obtain ⟨filled, slash, inside⟩ := mem_namesOf member
    obtain ⟨c, first⟩ := exists_mem_of_ne_nil name filled
    exact slash (only c (inside c first) ▸ first)
  | cons c rest =>
    left
    have other := head_dropWhile_not (· = '/') (l := path.text.reverse) (by simp [front])
    simpa [endsInSlash, front] using other

/-- An entry that is missing would be under the last name. -/
theorem Leads.of_absent {links : Nat} {here : Location} {names : List Text}
    (leads : disk.Leads .entry links false here names (.absent l)) :
    ∃ above, ∃ name ∈ names, disk.Asks .entry false above name [] ∧ l = above ++ [name] ∧
      disk.node? l = none := by
  rcases eq_nil_or_concat names with rfl | ⟨front, name, rfl⟩
  · cases leads
  · rw [concat_eq_append] at leads
    obtain ⟨above, left, -, last⟩ := leads.split (cons_ne_nil name [])
    cases last with
    | dots _ _ later => cases later
    | name _ _ _ later => cases later
    | absent asks missing => exact ⟨above, name, by simp, asks, rfl, missing⟩
    | link _ _ followed => exact absurd ⟨rfl, rfl, rfl⟩ followed

theorem of_createDirectory_eq_ok (created : disk.createDirectory path = .ok after) :
    ∃ above name, disk.node? above = some .directory ∧ IsFileName name ∧
      disk.node? (above ++ [name]) = none ∧ after = disk.setNode (above ++ [name]) .directory := by
  rw [createDirectory] at created
  split at created
  · simp at created
  · simp at created
  · next l resolved =>
    obtain ⟨accepted, leads⟩ := resolve_eq_ok_iff.mp resolved
    rcases endsInSlash_withoutFinalSlashes path with bare | root
    · rw [bare] at leads
      obtain ⟨above, name, member, asks, rfl, missing⟩ := leads.of_absent
      obtain ⟨filled, slash, inside⟩ := mem_namesOf member
      obtain ⟨nul, -, -⟩ := refusal?_eq_none_iff.mp accepted
      exact ⟨above, name, asks.directory, ⟨⟨filled, slash, asks.dot, asks.up⟩,
        fun c member => nul c (inside c member), Nat.le_of_not_lt asks.short⟩, missing,
        (Except.ok.inj created).symm⟩
    · generalize endsInSlash (withoutFinalSlashes path) = slash at leads
      rw [root] at leads
      cases leads

section Make

variable {disk : Disk}

/-- A directory is made where nothing was. -/
theorem grows_makeDirectory {above : Location} (directory : disk.node? above = some .directory)
    (named : IsFileName name) (missing : disk.node? (above ++ [name]) = none) :
    Grows ∅ disk (disk.setNode (above ++ [name]) .directory) := by
  have found := node?_setNode disk (show above ++ [name] ≠ [] by simp) .directory
  have kept (l : Location) (there : disk.node? l = some .directory) :
      (disk.setNode (above ++ [name]) .directory).node? l = some .directory := by
    rw [found]
    split
    · rfl
    · exact there
  refine ⟨rfl, kept, fun l _ => ?_, fun free l target => ?_, fun tree => ⟨?_, ?_, ?_⟩⟩
  · rw [found]
    split
    · next same => exact .inr ⟨same ▸ missing, rfl⟩
    · exact .inl rfl
  · rw [found]
    split
    · simp
    · exact free l target
  · exact (Dictionary.get?_insert disk.nodes _ _ []).trans ((if_neg (by simp)).trans tree.root)
  · intro l other present
    rw [found] at present
    split at present
    · next same => exact (append_singleton_inj.mp same).2 ▸ named
    · exact tree.isFileName l other present
  · intro l other present
    rw [found] at present
    split at present
    · next same => exact kept l ((append_singleton_inj.mp same).1 ▸ directory)
    · exact kept l (tree.parent l other present)

theorem grows_of_createDirectory (created : disk.createDirectory path = .ok after) :
    Grows ∅ disk after := by
  obtain ⟨above, name, directory, named, missing, rfl⟩ := of_createDirectory_eq_ok created
  exact grows_makeDirectory directory named missing

theorem grows_createNested (disk : Disk) (paths : List Path) :
    Grows ∅ disk (disk.createNested paths).2 := by
  induction paths with
  | nil => exact .refl ∅ disk
  | cons path outer ih =>
    rw [createNested]
    split
    · next created => exact grows_of_createDirectory created
    · split
      · next failed =>
        rw [failed] at ih
        exact ih
      · next made =>
        rw [made] at ih
        split
        · next created => exact ih.trans (grows_of_createDirectory created)
        · exact ih
    · exact .refl ∅ disk

theorem grows_createParent (disk : Disk) (path : Path) :
    Grows ∅ disk (disk.createParent path).2 := by
  rw [createParent]
  split
  · exact .refl ∅ disk
  · split
    · exact .refl ∅ disk
    · exact grows_createNested disk _

end Make

section Write

variable {disk : Disk} {base : Path} {name : Text}

theorem isFileName_of_obstacle? (h : IsName name)
    (clear : obstacle? (base.join ⟨name⟩) name = none) : IsFileName name := by
  rw [obstacle?] at clear
  split at clear
  · simp at clear
  · next accepted =>
    split at clear
    · simp at clear
    · next short =>
      refine ⟨h, fun c member => ?_, by omega⟩
      have other : c ≠ '/' := fun same => h.slash (same ▸ member)
      exact (refusal?_eq_none_iff.mp accepted).1 c ((mem_text_join base h other).mpr (.inr member))

theorem Entry.ne_nil (entry : disk.Entry path l) : l ≠ [] := by
  obtain ⟨-, base, name, above, -, -, -, -, rfl⟩ := entry
  simp

/-- A file is put where a path leads. -/
theorem Entry.grows_setFile (entry : disk.Entry path l) (vacant : disk.node? l ≠ some .directory)
    (content : ByteArray) : Grows {l} disk (disk.setNode l (.file content)) := by
  obtain ⟨accepted, base, name, above, named, rfl, reaches, short, rfl⟩ := entry
  refine .of_confined
    (.setNode (Set.mem_singleton _) (by simp) vacant (by simp) (by simp)) fun l other present => ?_
  rw [node?_setNode _ (by simp)] at present
  split at present
  · next same =>
    obtain ⟨rfl, rfl⟩ := append_singleton_inj.mp same
    exact .inl ⟨isFileName_of_obstacle? named (obstacle?_eq_none accepted short), reaches.node?_eq⟩
  · exact .inr present

theorem grows_written (opens : disk.OpensPath base) (h : IsName name) {content : ByteArray}
    (clear : obstacle? (base.join ⟨name⟩) name = none)
    (vacant : disk.node? (disk.placeOf base ++ [name]) ≠ some .directory)
    (vacant' : disk.node? (disk.placeOf base ++ [temporaryName name]) ≠ some .directory) :
    Grows {disk.placeOf base ++ [name], disk.placeOf base ++ [temporaryName name]} disk
      (disk.written base name content) := by
  refine .of_confined (confined_written vacant vacant') fun l other present => ?_
  rw [node?_written] at present
  split at present
  · next same =>
    obtain ⟨rfl, rfl⟩ := append_singleton_inj.mp same
    exact .inl ⟨isFileName_of_obstacle? h clear, opens.placeOf_directory⟩
  · split at present
    · simp at present
    · exact .inr present

theorem opensPath_of_write_temporary (free : disk.LinkFree) (h : IsName name) {stored : Disk}
    (wrote : disk.write (temporary (base.join ⟨name⟩)) content = .ok stored) :
    disk.OpensPath base := by
  rw [write] at wrote
  cases resolved : disk.resolve .creation (temporary (base.join ⟨name⟩)) with
  | error fault => simp [resolved] at wrote
  | ok found =>
    rw [temporary_eq base h] at resolved
    exact (opensPath_bare_iff disk base).mp
      (opensPath_of_resolve_join free (isName_temporaryName h) resolved)

theorem opensPath_of_read_eq_ok (free : disk.LinkFree) (h : IsName name)
    (there : disk.read (base.join ⟨name⟩) = .ok content) : disk.OpensPath base := by
  rw [read] at there
  cases resolved : disk.resolve .target (base.join ⟨name⟩) with
  | error fault => simp [resolved] at there
  | ok found => exact opensPath_of_resolve_join free h resolved

/-- A temporary sibling that could be written and moved into place. -/
theorem written_of_commit (free : disk.LinkFree) (opens : disk.OpensPath base) (h : IsName name)
    {stored : Disk} (wrote : disk.write (temporary (base.join ⟨name⟩)) content = .ok stored)
    (moved : stored.commit (base.join ⟨name⟩) = (.ok (), after)) :
    obstacle? (base.join ⟨name⟩) name = none ∧
      disk.node? (disk.placeOf base ++ [name]) ≠ some .directory ∧
      disk.node? (disk.placeOf base ++ [temporaryName name]) ≠ some .directory ∧
      after = disk.written base name content := by
  obtain ⟨vacant', renamed⟩ := rename_stored free opens h wrote
  cases clear : obstacle? (base.join ⟨name⟩) name with
  | some fault => simp [commit, renamed, clear] at moved
  | none =>
    by_cases vacant : disk.node? (disk.placeOf base ++ [name]) = some .directory
    · simp [commit, renamed, clear, vacant] at moved
    · simp only [clear, if_neg vacant] at renamed
      rw [commit, renamed, Prod.mk.injEq] at moved
      exact ⟨rfl, vacant, vacant', moved.2.symm⟩

/-- A replacement that succeeds has made the directories on the way, and then written the file. -/
theorem of_replace_eq_ok (free : disk.LinkFree) (h : IsName name)
    (replaced : disk.replace (base.join ⟨name⟩) content = (.ok (), after)) :
    ∃ grown : Disk, Grows ∅ disk grown ∧ grown.OpensPath base ∧
      obstacle? (base.join ⟨name⟩) name = none ∧
      grown.node? (grown.placeOf base ++ [name]) ≠ some .directory ∧
      grown.node? (grown.placeOf base ++ [temporaryName name]) ≠ some .directory ∧
      after = grown.written base name content := by
  have grows := grows_createParent disk (base.join ⟨name⟩)
  rw [replace] at replaced
  generalize disk.createParent (base.join ⟨name⟩) = parent at replaced grows
  obtain ⟨result, grown⟩ := parent
  cases result with
  | error fault => simp at replaced
  | ok _ =>
    simp only at replaced grows
    cases wrote : grown.write (temporary (base.join ⟨name⟩)) content with
    | error fault => simp [wrote] at replaced
    | ok stored =>
      rw [wrote] at replaced
      have opens := opensPath_of_write_temporary (grows.free free) h wrote
      exact ⟨grown, grows, opens, written_of_commit (grows.free free) opens h wrote replaced⟩

/-- After a write that succeeds the file holds the content, and nothing else has changed but that
the directories on the way are there. -/
theorem of_writeIfChanged_eq_ok (free : disk.LinkFree) (h : IsName name) {outcome : WriteOutcome}
    (wrote : disk.writeIfChanged (base.join ⟨name⟩) content = (.ok outcome, after)) :
    Grows (cell disk (base.join ⟨name⟩)) disk after ∧ after.OpensPath base ∧
      after.node? (disk.placeOf base ++ [name]) = some (.file content) ∧
      after.read (base.join ⟨name⟩) = .ok content := by
  rw [writeIfChanged] at wrote
  cases compared : disk.needsWrite (base.join ⟨name⟩) content with
  | error fault => simp [compared] at wrote
  | ok needed =>
    rcases isOk_of_needsWrite compared with ⟨rfl, same⟩ | ⟨rfl, -, -⟩
    · rw [compared, Prod.mk.injEq] at wrote
      obtain ⟨-, rfl⟩ := wrote
      have opens := opensPath_of_read_eq_ok free h same
      exact ⟨.refl _ disk, opens, node?_of_read free opens h same, same⟩
    · rw [compared] at wrote
      generalize replaced : disk.replace (base.join ⟨name⟩) content = pair at wrote
      obtain ⟨result, last⟩ := pair
      cases result with
      | error fault => simp at wrote
      | ok _ =>
        -- Behind the new directories the file may hold the content already, as on the way
        -- through `..`; it is written all the same.
        obtain ⟨grown, grows, opens, clear, vacant, vacant', rfl⟩ := of_replace_eq_ok free h replaced
        rw [Prod.mk.injEq] at wrote
        obtain ⟨-, rfl⟩ := wrote
        have wide := @grows_written grown base name opens h content clear vacant vacant'
        have there := node?_written_output grown base name content
        rw [← cell_join grown base h, cell_eq grows.home] at wide
        rw [grows.placeOf_eq] at there
        exact ⟨(grows.mono (Set.empty_subset _)).trans wide, wide.opensPath opens, there,
          read_written (grows.free free) opens h clear vacant vacant'⟩

end Write

end ComponentPack.Files.Disk
