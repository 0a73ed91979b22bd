import ComponentPack.Proofs.Files.Writing
import Mathlib.Data.Set.Lattice
import Mathlib.Order.CompletePartialOrder

/-!
Areas of a disk. What a step of writing an output does is told by the area in which the output and
its temporary sibling lie: disks that agree there give the same result and still agree there, and
nothing changes elsewhere.
-/

set_option autoImplicit false

namespace ComponentPack.Files.Disk

open ComponentPack.Path

variable {l : Location} {other : Set Location}

/-- Two disks with the same directories that agree in an area. -/
structure Agree (area : Set Location) (a b : Disk) : Prop where
  home : b.home = a.home
  directory : ∀ l, b.node? l = some .directory ↔ a.node? l = some .directory
  inside : ∀ l ∈ area, b.node? l = a.node? l

/-- A disk and what a change leaves of it: the same directories, and the same outside of an area. -/
structure Confined (area : Set Location) (before after : Disk) : Prop where
  home : after.home = before.home
  root : after.nodes.get? [] = before.nodes.get? []
  directory : ∀ l, after.node? l = some .directory ↔ before.node? l = some .directory
  outside : ∀ l ∉ area, after.node? l = before.node? l
  free : before.LinkFree → after.LinkFree

/-- Disks are told apart by what stands at their locations. -/
theorem eq_of_node? {a b : Disk} (home : a.home = b.home)
    (root : a.nodes.get? [] = b.nodes.get? []) (same : ∀ l, a.node? l = b.node? l) : a = b := by
  have nodes : a.nodes = b.nodes := by
    refine Dictionary.ext_get? fun l => ?_
    cases l with
    | nil => exact root
    | cons name names => exact same (name :: names)
  cases a
  cases b
  simp_all

namespace Agree

variable {area : Set Location} {a b c : Disk}

theorem refl (area : Set Location) (a : Disk) : Agree area a a :=
  ⟨rfl, fun _ => Iff.rfl, fun _ _ => rfl⟩

theorem symm (h : Agree area a b) : Agree area b a :=
  ⟨h.home.symm, fun l => (h.directory l).symm, fun l inside => (h.inside l inside).symm⟩

theorem trans (hab : Agree area a b) (hbc : Agree area b c) : Agree area a c :=
  ⟨hbc.home.trans hab.home, fun l => (hbc.directory l).trans (hab.directory l),
    fun l inside => (hbc.inside l inside).trans (hab.inside l inside)⟩

theorem opensPath (h : Agree area a b) {path : Path} (opens : a.OpensPath path) :
    b.OpensPath path :=
  opens.mono h.home fun l => (h.directory l).mpr

theorem placeOf_eq (h : Agree area a b) (path : Path) : b.placeOf path = a.placeOf path :=
  Disk.placeOf_eq h.home path

theorem setNode (h : Agree area a b) (inner : l ≠ []) (node : Node) :
    Agree area (a.setNode l node) (b.setNode l node) := by
  refine ⟨h.home, fun l' => ?_, fun l' inside => ?_⟩
  · rw [node?_setNode b inner, node?_setNode a inner]
    split
    · rfl
    · exact h.directory l'
  · rw [node?_setNode b inner, node?_setNode a inner]
    split
    · rfl
    · exact h.inside l' inside

theorem eraseNode (h : Agree area a b) (inner : l ≠ []) :
    Agree area (a.eraseNode l) (b.eraseNode l) := by
  refine ⟨h.home, fun l' => ?_, fun l' inside => ?_⟩
  · rw [node?_eraseNode b inner, node?_eraseNode a inner]
    split
    · rfl
    · exact h.directory l'
  · rw [node?_eraseNode b inner, node?_eraseNode a inner]
    split
    · rfl
    · exact h.inside l' inside

end Agree

namespace Confined

variable {area : Set Location} {a b c : Disk}

theorem refl (area : Set Location) (a : Disk) : Confined area a a :=
  ⟨rfl, rfl, fun _ => Iff.rfl, fun _ _ => rfl, id⟩

theorem trans (hab : Confined area a b) (hbc : Confined area b c) : Confined area a c :=
  ⟨hbc.home.trans hab.home, hbc.root.trans hab.root,
    fun l => (hbc.directory l).trans (hab.directory l),
    fun l outside => (hbc.outside l outside).trans (hab.outside l outside),
    fun free => hbc.free (hab.free free)⟩

theorem mono {larger : Set Location} (h : Confined area a b) (subset : area ⊆ larger) :
    Confined larger a b :=
  ⟨h.home, h.root, h.directory, fun l outside => h.outside l fun inside => outside (subset inside),
    h.free⟩

/-- What is changed in one area is not seen in another. -/
theorem agree (h : Confined area a b) (apart : Disjoint area other) : Agree other a b :=
  ⟨h.home, h.directory, fun l inside => h.outside l fun changed =>
    Set.disjoint_left.mp apart changed inside⟩

theorem setNode (inside : l ∈ area) (inner : l ≠ []) {node : Node}
    (was : a.node? l ≠ some .directory) (directory : node ≠ .directory)
    (link : a.LinkFree → ∀ target, node ≠ .link target) : Confined area a (a.setNode l node) := by
  refine ⟨rfl, ?_, fun l' => ?_, fun l' outside => ?_, fun free l' target => ?_⟩
  · exact (Dictionary.get?_insert a.nodes l node []).trans (if_neg inner)
  · rw [node?_setNode a inner]
    split
    · next same => simp [directory, ← same, was]
    · rfl
  · rw [node?_setNode a inner, if_neg fun same : l = l' => outside (same ▸ inside)]
  · rw [node?_setNode a inner]
    split
    · simp [link free target]
    · exact free l' target

theorem eraseNode (inside : l ∈ area) (inner : l ≠ []) (was : a.node? l ≠ some .directory) :
    Confined area a (a.eraseNode l) := by
  refine ⟨rfl, ?_, fun l' => ?_, fun l' outside => ?_, fun free l' target => ?_⟩
  · exact (Dictionary.get?_erase a.nodes l []).trans (if_neg inner)
  · rw [node?_eraseNode a inner]
    split
    · next same => simp [← same, was]
    · rfl
  · rw [node?_eraseNode a inner, if_neg fun same : l = l' => outside (same ▸ inside)]
  · rw [node?_eraseNode a inner]
    split
    · simp
    · exact free l' target

end Confined

/-- An operation does the same in an area: it fails on both disks, or changes both alike and
nothing elsewhere. The first result is that of the disk that is given. -/
inductive Alike (area : Set Location) (a : Disk) : Except Fault Disk → Except Fault Disk → Prop
  | fault (e : Fault) : Alike area a (.error e) (.error e)
  | done {a' b' : Disk} (agree : Agree area a' b') (confined : Confined area a a') :
    Alike area a (.ok a') (.ok b')

/-- An output in a directory that is there, which lies in an area together with its temporary
sibling. -/
structure Holds (area : Set Location) (disk : Disk) (base : Path) (name : Text) : Prop where
  isName : IsName name
  opens : disk.OpensPath base
  output : disk.placeOf base ++ [name] ∈ area
  temporary : disk.placeOf base ++ [temporaryName name] ∈ area

namespace Holds

variable {area : Set Location} {a b : Disk} {base : Path} {name : Text}

theorem transfer (h : Holds area a base name) (agree : Agree other a b) : Holds area b base name :=
  ⟨h.isName, agree.opensPath h.opens, agree.placeOf_eq base ▸ h.output,
    agree.placeOf_eq base ▸ h.temporary⟩

theorem narrow (h : Holds area a base name) (output : a.placeOf base ++ [name] ∈ other)
    (temporary : a.placeOf base ++ [temporaryName name] ∈ other) : Holds other a base name :=
  ⟨h.isName, h.opens, output, temporary⟩

theorem read_eq (h : Holds area a base name) (agree : Agree area a b) (ha : a.LinkFree)
    (hb : b.LinkFree) : b.read (base.join ⟨name⟩) = a.read (base.join ⟨name⟩) := by
  rw [read_join ha h.opens h.isName, read_join hb (agree.opensPath h.opens) h.isName,
    agree.placeOf_eq, agree.inside _ h.output]

theorem needsWrite_eq (h : Holds area a base name) (agree : Agree area a b) (ha : a.LinkFree)
    (hb : b.LinkFree) (content : ByteArray) :
    b.needsWrite (base.join ⟨name⟩) content = a.needsWrite (base.join ⟨name⟩) content := by
  rw [needsWrite, needsWrite, h.read_eq agree ha hb]

theorem createParent_eq (h : Holds area a base name) (ha : a.LinkFree) :
    a.createParent (base.join ⟨name⟩) = (parentResult base, a) :=
  createParent_join ha h.opens h.isName

/-- A temporary sibling is written to both disks, or to none. -/
theorem write_temporary (h : Holds area a base name) (agree : Agree area a b) (ha : a.LinkFree)
    (hb : b.LinkFree) (content : ByteArray) :
    Alike area a (a.write (Disk.temporary (base.join ⟨name⟩)) content)
      (b.write (Disk.temporary (base.join ⟨name⟩)) content) := by
  rw [Disk.write_temporary ha h.opens h.isName,
    Disk.write_temporary hb (agree.opensPath h.opens) h.isName, agree.placeOf_eq,
    agree.inside _ h.temporary]
  cases obstacle? (Disk.temporary (base.join ⟨name⟩)) (temporaryName name) with
  | some fault => exact .fault fault
  | none =>
    by_cases directory : a.node? (a.placeOf base ++ [temporaryName name]) = some .directory
    · simp only [directory, if_true]
      exact .fault .isDirectory
    · simp only [directory, if_false]
      exact .done (agree.setNode (by simp) _)
        (.setNode h.temporary (by simp) directory (by simp) (by simp))

/-- A temporary sibling is moved into place on both disks, or on none. -/
theorem rename_temporary (h : Holds area a base name) (agree : Agree area a b) (ha : a.LinkFree)
    (hb : b.LinkFree) {content : ByteArray}
    (stored : a.node? (a.placeOf base ++ [temporaryName name]) = some (.file content)) :
    Alike area a (a.rename (Disk.temporary (base.join ⟨name⟩)) (base.join ⟨name⟩))
      (b.rename (Disk.temporary (base.join ⟨name⟩)) (base.join ⟨name⟩)) := by
  rw [Disk.rename_temporary ha h.opens h.isName,
    Disk.rename_temporary hb (agree.opensPath h.opens) h.isName, agree.placeOf_eq,
    agree.inside _ h.output, agree.inside _ h.temporary, stored]
  cases obstacle? (Disk.temporary (base.join ⟨name⟩)) (temporaryName name) with
  | some fault => exact .fault fault
  | none =>
    cases obstacle? (base.join ⟨name⟩) name with
    | some fault => exact .fault fault
    | none =>
      by_cases directory : a.node? (a.placeOf base ++ [name]) = some .directory
      · simp only [directory, if_true]
        exact .fault .isDirectory
      · simp only [directory, if_false]
        have erased : Confined area a (a.eraseNode (a.placeOf base ++ [temporaryName name])) :=
          .eraseNode h.temporary (by simp) (by simp [stored])
        refine .done ((agree.eraseNode (by simp)).setNode (by simp) _)
          (erased.trans (.setNode h.output (by simp) ?_ (by simp) (by simp)))
        exact fun found => directory ((erased.directory _).mp found)

/-- A temporary sibling is removed from both disks, or from none. -/
theorem removeFile_temporary (h : Holds area a base name) (agree : Agree area a b)
    (ha : a.LinkFree) (hb : b.LinkFree) {content : ByteArray}
    (stored : a.node? (a.placeOf base ++ [temporaryName name]) = some (.file content)) :
    Alike area a (a.removeFile (Disk.temporary (base.join ⟨name⟩)))
      (b.removeFile (Disk.temporary (base.join ⟨name⟩))) := by
  rw [Disk.removeFile_temporary ha h.opens h.isName,
    Disk.removeFile_temporary hb (agree.opensPath h.opens) h.isName, agree.placeOf_eq,
    agree.inside _ h.temporary, stored]
  cases obstacle? (Disk.temporary (base.join ⟨name⟩)) (temporaryName name) with
  | some fault => exact .fault fault
  | none =>
    exact .done (agree.eraseNode (by simp)) (.eraseNode h.temporary (by simp) (by simp [stored]))

end Holds

end ComponentPack.Files.Disk
