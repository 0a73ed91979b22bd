import Mathlib
import ComponentPack.Proofs.Files.Growing

/-!
Writing an output on any disk, also with links on the way. A write that fails leaves every file as
it was, but for the temporary sibling; one that succeeds has changed the output alone.
-/

set_option autoImplicit false

namespace ComponentPack.Files.Disk

open ComponentPack.Path

variable {disk stored after : Disk} {path : Path} {content : ByteArray} {l here there : Location}

/-- Nothing or a file stands at a location. -/
def Plain (disk : Disk) (l : Location) : Prop :=
  ∀ node, disk.node? l = some node → ∃ content, node = .file content

theorem Plain.ne_directory (plain : disk.Plain l) : disk.node? l ≠ some .directory := by
  intro directory
  obtain ⟨_, file⟩ := plain _ directory
  simp at file

theorem keeps_of_plain {other : Disk} (home : other.home = disk.home)
    (same : ∀ l, other.node? l = disk.node? l ∨ disk.Plain l) : Keeps disk other := by
  refine ⟨home, fun l node other there => ?_⟩
  rcases same l with same | plain
  · exact same.trans there
  · obtain ⟨content, rfl⟩ := plain node there
    exact absurd rfl (other content)

theorem read_eq_ok_iff :
    disk.read path = .ok content ↔
      ∃ l, disk.resolve .target path = .ok (.present l (.file content)) := by
  rw [read]
  split <;> simp_all

/-- What may be written is an entry at which no directory stands; a link there is followed. -/
theorem of_write (tree : disk.IsTree) (wrote : disk.write path content = .ok stored)
    (unlinked : ∀ l target, disk.resolve .entry path ≠ .ok (.present l (.link target))) :
    ∃ l, disk.Entry path l ∧ disk.Plain l ∧ stored = disk.setNode l (.file content) := by
  rw [write] at wrote
  cases resolved : disk.resolve .creation path with
  | error fault => simp [resolved] at wrote
  | ok found =>
    have other (l : Location) : found ≠ .present l .directory := by
      rintro rfl
      simp [resolved] at wrote
    obtain ⟨l, entry, rfl | ⟨-, target, link⟩⟩ := entry_of_resolve tree resolved
      (endsInSlash_of_resolve resolved other (.inl rfl)) other
    · rw [resolved, foundAt] at wrote
      refine ⟨l, entry, ?_⟩
      cases there : disk.node? l with
      | none => exact ⟨by simp [Plain, there], by simpa [there] using wrote.symm⟩
      | some node => cases node <;> simp_all [Plain]
    · exact absurd (by rw [entry.resolve_eq (.inl rfl), foundAt, link]) (unlinked l target)

theorem rename_eq_ok {origin target : Path} {node : Node}
    (source : disk.resolve .entry origin = .ok (.present there node))
    (entry : disk.Entry target here) (vacant : disk.node? here ≠ some .directory) :
    disk.rename origin target = .ok ((disk.eraseNode there).setNode here node) := by
  have resolved := entry.resolve_eq (.inl rfl)
  obtain ⟨-, base, name, above, h, rfl, -, -, rfl⟩ := entry
  rw [rename, source]
  simp only [withoutFinalSlashes_eq (endsInSlash_join base h), resolved, foundAt,
    endsInName_join base h, endsInSlash_join base h]
  cases found : disk.node? (above ++ [name]) with
  | none => rfl
  | some other =>
    have plain : other ≠ .directory := by
      rintro rfl
      exact vacant found
    simp [plain]

theorem of_rename (tree : disk.IsTree) {origin target : Path} {node : Node}
    (source : disk.resolve .entry origin = .ok (.present there node))
    (renamed : disk.rename origin target = .ok after) :
    ∃ here, disk.Entry target here ∧ disk.node? here ≠ some .directory ∧
      after = (disk.eraseNode there).setNode here node := by
  have steps := renamed
  rw [rename, source] at steps
  cases resolved : disk.resolve .entry (withoutFinalSlashes target) with
  | error fault => simp [resolved] at steps
  | ok found =>
    rw [resolved] at steps
    obtain ⟨bare, other⟩ :
        endsInSlash target = false ∧ ∀ l, found ≠ .present l .directory := by
      cases found with
      | absent location => split_ifs at steps <;> simp_all
      | present location node' =>
        by_cases directory : node' = .directory <;> split_ifs at steps <;> simp_all
    rw [withoutFinalSlashes_eq bare] at resolved
    obtain ⟨here, entry, rfl | ⟨followed, -⟩⟩ := entry_of_resolve tree resolved bare other
    · have vacant : disk.node? here ≠ some .directory := fun directory =>
        other here (by rw [foundAt, directory])
      rw [rename_eq_ok source entry vacant] at renamed
      exact ⟨here, entry, vacant, (Except.ok.inj renamed).symm⟩
    · exact absurd rfl followed

/-- The temporary sibling of an output is not a link, and a link in the place of the output is not
on the way to it. -/
structure Apart (disk : Disk) (path : Path) : Prop where
  sibling : ∀ l target, disk.resolve .entry (temporary path) ≠ .ok (.present l (.link target))
  route : ∀ l target, disk.resolve .entry path = .ok (.present l (.link target)) →
    (disk.eraseNode l).resolve .entry path = .ok (.absent l)

/-- The way to an output does not go through what stands there. -/
theorem Apart.reaches_eraseNode {base : Path} {name : Text} {above : Location}
    (apart : disk.Apart (base.join ⟨name⟩)) (h : IsName name)
    (entry : disk.Entry (base.join ⟨name⟩) (above ++ [name])) (reaches : disk.Reaches base above)
    (vacant : disk.node? (above ++ [name]) ≠ some .directory) :
    (disk.eraseNode (above ++ [name])).Reaches base above := by
  by_cases link : ∃ target, disk.node? (above ++ [name]) = some (.link target)
  · obtain ⟨target, link⟩ := link
    have resolved := apart.route _ target (by rw [entry.resolve_eq (.inl rfl), foundAt, link])
    obtain ⟨above, reaches, -, found | ⟨followed, -⟩⟩ := of_resolve_join_eq_ok h resolved
    · rw [foundAt] at found
      split at found
      · obtain ⟨rfl, -⟩ := List.append_singleton_inj.mp (Found.absent.inj found)
        exact reaches
      · simp at found
    · exact absurd rfl followed
  · have keeps : Keeps disk (disk.eraseNode (above ++ [name])) := by
      refine keeps_of_plain rfl fun l => ?_
      rw [node?_eraseNode disk entry.ne_nil]
      split
      · next same =>
        refine .inr fun node found => ?_
        rw [← same] at found
        cases node with
        | file old => exact ⟨old, rfl⟩
        | directory => exact absurd found vacant
        | link target => exact absurd ⟨target, found⟩ link
      · exact .inl rfl
    exact reaches.mono keeps

/-- The temporary sibling holds the content. -/
structure Stores (disk : Disk) (path : Path) (content : ByteArray) (there : Location)
    (stored : Disk) : Prop where
  entry : disk.Entry (temporary path) there
  plain : disk.Plain there
  eq : stored = disk.setNode there (.file content)

namespace Stores

variable (stores : Stores disk path content there stored)

include stores

theorem node?_eq (l : Location) :
    stored.node? l = if there = l then some (.file content) else disk.node? l := by
  rw [stores.eq, node?_setNode disk stores.entry.ne_nil]

theorem keeps : Keeps disk stored := by
  refine keeps_of_plain (by rw [stores.eq]; rfl) fun l => ?_
  by_cases same : there = l
  · exact .inr (same ▸ stores.plain)
  · exact .inl (by rw [stores.node?_eq, if_neg same])

theorem source : stored.resolve .entry (temporary path) = .ok (.present there (.file content)) := by
  rw [(stores.entry.mono stores.keeps).resolve_eq (.inl rfl), foundAt, stores.node?_eq, if_pos rfl]

theorem isTree (tree : disk.IsTree) : stored.IsTree := by
  rw [stores.eq]
  exact (stores.entry.grows_setFile stores.plain.ne_directory content).tree tree

theorem keeps_back : Keeps stored disk := by
  refine keeps_of_plain (by rw [stores.eq]; rfl) fun l => ?_
  rw [Plain, stores.node?_eq]
  split
  · exact .inr fun node same => ⟨content, (Option.some.inj same).symm⟩
  · exact .inl rfl

/-- An output that is read can be replaced. -/
theorem exists_rename (tree : disk.IsTree) {old : ByteArray} (read : disk.read path = .ok old) :
    ∃ after, stored.rename (temporary path) path = .ok after := by
  obtain ⟨l, resolved⟩ := read_eq_ok_iff.mp read
  obtain ⟨here, entry, found⟩ := entry_of_resolve tree resolved
    (endsInSlash_of_resolve resolved (by simp) (.inr (by simp))) (by simp)
  refine ⟨_, rename_eq_ok stores.source (entry.mono stores.keeps) fun directory => ?_⟩
  have directory := stores.keeps_back.node here .directory (by simp) directory
  simp [foundAt, directory] at found

/-- The output has taken the place of what stood there, and the temporary sibling is gone. -/
theorem of_rename (tree : disk.IsTree) (apart : disk.Apart path)
    (renamed : stored.rename (temporary path) path = .ok after) :
    ∃ here, after.Entry path here ∧
      after.resolve .entry (temporary path) = .ok (.absent there) ∧
      (∀ l, after.node? l = if here = l then some (.file content) else
        if there = l then none else disk.node? l) ∧
      ∀ parent, path.parent? = some parent → parent.text ≠ [] → after.isDirectory parent = true := by
  obtain ⟨here, entry, vacant, rfl⟩ := Disk.of_rename (stores.isTree tree) stores.source renamed
  have nodes (l : Location) : ((stored.eraseNode there).setNode here (.file content)).node? l =
      if here = l then some (.file content) else if there = l then none else disk.node? l := by
    rw [node?_setNode _ entry.ne_nil, node?_eraseNode _ stores.entry.ne_nil, stores.node?_eq]
    split
    · rfl
    · split <;> rfl
  obtain ⟨accepted, base, name, above, h, rfl, reaches, short, rfl⟩ := entry
  have temporary := temporary_eq base h
  have source := stores.source
  rw [temporary] at source
  obtain ⟨above', reaches', sibling, -⟩ := of_resolve_join_eq_ok (isName_temporaryName h) source
  obtain rfl := (reaches_bare_iff.mp reaches').unique reaches
  rw [← temporary] at sibling
  obtain rfl := (stores.entry.mono stores.keeps).unique sibling
  have other : above' ++ [name] ≠ above' ++ [temporaryName name] := fun same => by
    have longer := congrArg List.length (List.append_singleton_inj.mp same).2
    simp only [temporaryName, List.length_append, List.length_cons] at longer
    omega
  have before := reaches.mono stores.keeps_back
  have way := apart.reaches_eraseNode h ⟨accepted, base, name, above', h, rfl, before, short, rfl⟩
    before fun directory => vacant (stores.keeps.node _ _ (by simp) directory)
  have keeps : Keeps (disk.eraseNode (above' ++ [name]))
      ((stored.eraseNode (above' ++ [temporaryName name])).setNode (above' ++ [name])
        (.file content)) := by
    refine keeps_of_plain stores.keeps.home fun l => ?_
    rw [nodes, Plain, node?_eraseNode disk (by simp)]
    split
    · exact .inr (by simp)
    · split
      · next same => exact .inr (same ▸ stores.plain)
      · exact .inl rfl
  have reach := way.mono keeps
  refine ⟨above' ++ [name], ⟨accepted, base, name, above', h, rfl, reach, short, rfl⟩, ?_, nodes,
    fun parent is_parent filled => ?_⟩
  · have entry : Entry _ (Disk.temporary (base.join ⟨name⟩)) (above' ++ [temporaryName name]) :=
      ⟨sibling.accepted, base.bare, temporaryName name, above', isName_temporaryName h, temporary,
        reaches_bare_iff.mpr reach, sibling.short, rfl⟩
    rw [entry.resolve_eq (.inl rfl), foundAt, nodes, if_neg other, if_pos rfl]
  · rw [parent?_join base h] at is_parent
    obtain rfl := Option.some.inj is_parent
    exact isDirectory_iff.mpr ⟨refusal?_of_isPrefix ((prefix_bare base).trans (prefix_join base h))
      accepted filled, above', reaches_bare_iff.mpr reach⟩

end Stores

theorem read_mono {other : Disk} (keeps : Keeps disk other)
    (file : ∀ l, disk.node? l = some (.file content) → other.node? l = some (.file content))
    (found : disk.read path = .ok content) : other.read path = .ok content := by
  obtain ⟨l, resolved⟩ := read_eq_ok_iff.mp found
  obtain ⟨accepted, leads⟩ := resolve_eq_ok_iff.mp resolved
  refine read_eq_ok_iff.mpr ⟨l, resolve_eq_ok_iff.mpr ⟨accepted, ?_⟩⟩
  rw [start_keeps keeps]
  exact leads.mono keeps (file l leads.node?_eq)

/-- A path that led nowhere leads to a file through directories that are new. -/
structure Detour (before after : Disk) (path : Path) (content : ByteArray) : Prop where
  missing : before.read path = .error .notFound
  made : ∃ l, before.node? l = none ∧ after.node? l = some .directory
  file : ∃ l, after.resolve .target path = .ok (.present l (.file content)) ∧
    before.node? l = some (.file content)

/-- What a write that fails leaves behind. -/
structure Spares (before after : Disk) (path : Path) : Prop where
  frame : ∀ l, after.node? l = before.node? l ∨
    before.node? l = none ∧ after.node? l = some .directory ∨
    after.node? l = none ∧ after.resolve .entry (temporary path) = .ok (.absent l)
  kept : ∀ old, before.read path = .ok old → after.read path = .ok old
  read : ∀ new, after.read path = .ok new →
    before.read path = .ok new ∨ Detour before after path new

theorem detour_of_read (home : after.home = disk.home)
    (frame : ∀ l, after.node? l = disk.node? l ∨
      disk.node? l = none ∧ after.node? l = some .directory ∨ after.node? l = none)
    (missing : disk.read path = .error .notFound) (found : after.read path = .ok content) :
    Detour disk after path content := by
  have known (l : Location) (there : after.node? l = some (.file content)) :
      disk.node? l = some (.file content) := by
    rcases frame l with same | ⟨-, made⟩ | gone
    · exact same.symm.trans there
    · simp [there] at made
    · simp [there] at gone
  obtain ⟨l, resolved⟩ := read_eq_ok_iff.mp found
  refine ⟨missing, by_contra fun none => ?_,
    l, resolved, known l (resolve_eq_ok_iff.mp resolved).2.node?_eq⟩
  have keeps : Keeps after disk := by
    refine keeps_of_plain home.symm fun l => ?_
    rcases frame l with same | made | gone
    · exact .inl same.symm
    · exact absurd ⟨l, made⟩ none
    · exact .inr (by simp [Plain, gone])
  simp [read_mono keeps known found] at missing

/-- How an output is replaced, once its directory has been made as far as it can be. -/
inductive Replaces (disk : Disk) (path : Path) (content : ByteArray) :
    Except Fault Unit × Disk → Prop
  | failed (fault : Fault) : Replaces disk path content (.error fault, disk)
  | undone (fault : Fault) {there : Location} {stored : Disk}
    (stores : Stores disk path content there stored)
    (unread : ∀ old, disk.read path ≠ .ok old) :
    Replaces disk path content (.error fault, stored.eraseNode there)
  | done {there : Location} {stored after : Disk} (stores : Stores disk path content there stored)
    (renamed : stored.rename (temporary path) path = .ok after) :
    Replaces disk path content (.ok (), after)

theorem replaces_replace (tree : disk.IsTree) (apart : (disk.createParent path).2.Apart path) :
    Replaces (disk.createParent path).2 path content (disk.replace path content) := by
  have grows := grows_createParent disk path
  rw [replace]
  generalize disk.createParent path = pair at apart grows
  obtain ⟨_ | _, made⟩ := pair
  · exact .failed _
  simp only at apart grows ⊢
  cases wrote : made.write (temporary path) content with
  | error fault => exact .failed fault
  | ok stored =>
    obtain ⟨there, entry, plain, eq⟩ := of_write (grows.tree tree) wrote apart.sibling
    have stores : Stores made path content there stored := ⟨entry, plain, eq⟩
    simp only [commit]
    cases renamed : stored.rename (temporary path) path with
    | ok after => exact .done stores renamed
    | error fault =>
      simp only [removeFile, stores.source]
      refine .undone fault stores fun old found => ?_
      obtain ⟨after, moved⟩ := stores.exists_rename (grows.tree tree) found
      simp [renamed] at moved

theorem spares_of_replaces {made : Disk} (grows : Grows ∅ disk made)
    (missing : ∀ fault, disk.read path = .error fault → fault = .notFound) {fault : Fault}
    (replaces : Replaces made path content (.error fault, after)) : Spares disk after path := by
  have read' (old : ByteArray) (found : disk.read path = .ok old) : made.read path = .ok old :=
    read_mono (grows.keeps (by simp)) (fun l => (grows.file_iff (Set.notMem_empty l)).mpr) found
  have read (kept : ∀ old, disk.read path = .ok old → after.read path = .ok old)
      (home : after.home = disk.home)
      (frame : ∀ l, after.node? l = disk.node? l ∨
        disk.node? l = none ∧ after.node? l = some .directory ∨ after.node? l = none)
      (new : ByteArray) (found : after.read path = .ok new) :
      disk.read path = .ok new ∨ Detour disk after path new := by
    cases before : disk.read path with
    | ok old => exact .inl ((kept old before).symm.trans found)
    | error fault =>
      exact .inr (detour_of_read home frame (missing fault before ▸ before) found)
  cases replaces with
  | failed =>
    have frame (l : Location) := grows.outside l (Set.notMem_empty l)
    exact ⟨fun l => (frame l).imp_right .inl, read',
      read read' grows.home fun l => (frame l).imp_right .inl⟩
  | @undone _ there stored stores unread =>
    have nodes (l : Location) :
        (stored.eraseNode there).node? l = if there = l then none else made.node? l := by
      rw [node?_eraseNode _ stores.entry.ne_nil, stores.node?_eq]
      split <;> rfl
    have keeps : Keeps made (stored.eraseNode there) := by
      refine keeps_of_plain stores.keeps.home fun l => ?_
      rw [nodes]
      split
      · next same => exact .inr (same ▸ stores.plain)
      · exact .inl rfl
    have gone := (stores.entry.mono keeps).resolve_eq (.inl rfl)
    rw [foundAt, nodes, if_pos rfl] at gone
    have kept (old : ByteArray) (found : disk.read path = .ok old) :
        (stored.eraseNode there).read path = .ok old :=
      absurd (read' old found) (unread old)
    have frame (l : Location) : (stored.eraseNode there).node? l = disk.node? l ∨
        disk.node? l = none ∧ (stored.eraseNode there).node? l = some .directory ∨
        (stored.eraseNode there).node? l = none ∧
          (stored.eraseNode there).resolve .entry (temporary path) = .ok (.absent l) := by
      rw [nodes]
      split
      · next same => exact .inr (.inr ⟨rfl, same ▸ gone⟩)
      · exact (grows.outside l (Set.notMem_empty l)).imp_right .inl
    exact ⟨frame, kept, read kept (keeps.home.trans grows.home) fun l =>
      (frame l).imp_right (Or.imp_right And.left)⟩

/-- What a write that succeeds comes to. -/
structure Replaced (before after : Disk) (path : Path) (content : ByteArray) : Prop where
  read : after.read path = .ok content
  frame : ∃ here there, after.resolve .entry path = .ok (.present here (.file content)) ∧
    after.resolve .entry (temporary path) = .ok (.absent there) ∧
    ∀ l, l ≠ here → l ≠ there → after.node? l = before.node? l ∨
      before.node? l = none ∧ after.node? l = some .directory
  parent : ∀ parent, path.parent? = some parent → parent.text ≠ [] →
    after.isDirectory parent = true

theorem replaced_of_replaces {made : Disk} (tree : made.IsTree) (apart : made.Apart path)
    (grows : Grows ∅ disk made) (replaces : Replaces made path content (.ok (), after)) :
    Replaced disk after path content := by
  cases replaces with
  | @done there stored _ stores renamed =>
    obtain ⟨here, entry, gone, nodes, parent⟩ := stores.of_rename tree apart renamed
    have file : after.node? here = some (.file content) := by rw [nodes, if_pos rfl]
    refine ⟨read_eq_ok_iff.mpr ⟨here, ?_⟩, ⟨here, there, ?_, gone, fun l first second => ?_⟩,
      parent⟩
    · rw [entry.resolve_eq (.inr (by simp [file])), foundAt, file]
    · rw [entry.resolve_eq (.inl rfl), foundAt, file]
    · rw [nodes, if_neg first.symm, if_neg second.symm]
      exact grows.outside l (Set.notMem_empty l)

/-- A link to a file. -/
def linked (content : ByteArray) : Disk :=
  ⟨.ofList [(["a"], .link (.ofString "b")), (["b"], .file content)], []⟩

/-- A file, and a directory in the place of its temporary sibling. -/
def occupied (content : ByteArray) : Disk :=
  ⟨.ofList [(["a"], .file content), ([".a.tmp"], .directory)], []⟩

end ComponentPack.Files.Disk
