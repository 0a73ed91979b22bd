import ComponentPack.Proofs.Dictionary
import ComponentPack.Proofs.Files.Resolution

/-!
Writing an output step by step, on a disk without links. In a directory that is there, each step
looks at the output and at its temporary sibling only, and changes only these two.
-/

set_option autoImplicit false

namespace ComponentPack.Files.Disk

open ComponentPack.Path

variable {name : Text} {path : Path}

@[simp] theorem home_setNode (disk : Disk) (l : Location) (node : Node) :
    (disk.setNode l node).home = disk.home := rfl

theorem node?_setNode (disk : Disk) {l : Location} (inner : l ≠ []) (node : Node)
    (other : Location) :
    (disk.setNode l node).node? other = if l = other then some node else disk.node? other := by
  cases other with
  | nil => rw [if_neg inner]; rfl
  | cons name names => exact Dictionary.get?_insert disk.nodes l node (name :: names)

theorem node?_eraseNode (disk : Disk) {l : Location} (inner : l ≠ []) (other : Location) :
    (disk.eraseNode l).node? other = if l = other then none else disk.node? other := by
  cases other with
  | nil => rw [if_neg inner]; rfl
  | cons name names => exact Dictionary.get?_erase disk.nodes l (name :: names)

/-- The name of a temporary sibling. -/
def temporaryName (name : Text) : Text := '.' :: name ++ ".tmp"

theorem isName_temporaryName (h : IsName name) : IsName (temporaryName name) := by
  refine ⟨by simp [temporaryName], ?_, by simp [temporaryName], ?_⟩
  · simp [temporaryName, h.slash]
  · intro same
    have long := congrArg List.length same
    simp [temporaryName] at long

theorem temporary_eq (base : Path) (h : IsName name) :
    temporary (base.join ⟨name⟩) = base.bare.join ⟨temporaryName name⟩ := temporary_join base h

theorem withoutFinalSlashes_eq (last : endsInSlash path = false) :
    withoutFinalSlashes path = path := by
  have kept : path.text.reverse.dropWhile (· = '/') = path.text.reverse := by
    cases text : path.text.reverse with
    | nil => rfl
    | cons c rest =>
      have ends : path.text.getLast? = some c := by
        rw [List.getLast?_eq_head?_reverse, text]
        rfl
      have other : c ≠ '/' := by simpa [endsInSlash, ends] using last
      rw [List.dropWhile_cons_of_neg (by simpa using other)]
  rw [withoutFinalSlashes, kept, List.reverse_reverse]
  split <;> rfl

theorem endsInName_join (base : Path) (h : IsName name) : endsInName (base.join ⟨name⟩) = true := by
  rw [endsInName, namesOf_join base h, List.getLast?_concat]
  simp [h.here, h.up]

section Output

variable {disk : Disk} {base : Path} {name : Text}

/-- The content of what stands at a location, as it is read. -/
def contentOf : Option Node → Except Fault ByteArray
  | none => .error .notFound
  | some (.file content) => .ok content
  | some .directory => .error .isDirectory
  | some (.link _) => .error .tooManyLinks

theorem read_join (free : disk.LinkFree) (opens : disk.OpensPath base) (h : IsName name) :
    disk.read (base.join ⟨name⟩) =
      match obstacle? (base.join ⟨name⟩) name with
      | some fault => .error fault
      | none => contentOf (disk.node? (disk.placeOf base ++ [name])) := by
  rw [read, resolve_join free opens h]
  cases obstacle? (base.join ⟨name⟩) name with
  | some fault => rfl
  | none =>
    simp only [foundAt]
    cases disk.node? (disk.placeOf base ++ [name]) with
    | none => rfl
    | some node => cases node <;> rfl

theorem resolve_temporary (free : disk.LinkFree) (opens : disk.OpensPath base) (h : IsName name)
    (purpose : Purpose) :
    disk.resolve purpose (temporary (base.join ⟨name⟩)) =
      match obstacle? (temporary (base.join ⟨name⟩)) (temporaryName name) with
      | some fault => .error fault
      | none => .ok (disk.foundAt (disk.placeOf base ++ [temporaryName name])) := by
  have found := @resolve_join disk purpose free base.bare
    ((opensPath_bare_iff disk base).mpr opens) (temporaryName name) (isName_temporaryName h)
  rw [placeOf_bare] at found
  rw [temporary_eq base h]
  exact found

theorem write_temporary (free : disk.LinkFree) (opens : disk.OpensPath base) (h : IsName name)
    (content : ByteArray) :
    disk.write (temporary (base.join ⟨name⟩)) content =
      match obstacle? (temporary (base.join ⟨name⟩)) (temporaryName name) with
      | some fault => .error fault
      | none =>
        if disk.node? (disk.placeOf base ++ [temporaryName name]) = some .directory then
          .error .isDirectory
        else .ok (disk.setNode (disk.placeOf base ++ [temporaryName name]) (.file content)) := by
  rw [write, resolve_temporary free opens h]
  cases obstacle? (temporary (base.join ⟨name⟩)) (temporaryName name) with
  | some fault => rfl
  | none =>
    simp only [foundAt]
    cases found : disk.node? (disk.placeOf base ++ [temporaryName name]) with
    | none => rfl
    | some node =>
      cases node with
      | file old => rfl
      | directory => rfl
      | link target => exact absurd found (free _ target)

theorem rename_temporary (free : disk.LinkFree) (opens : disk.OpensPath base) (h : IsName name) :
    disk.rename (temporary (base.join ⟨name⟩)) (base.join ⟨name⟩) =
      match obstacle? (temporary (base.join ⟨name⟩)) (temporaryName name) with
      | some fault => .error fault
      | none =>
        match disk.node? (disk.placeOf base ++ [temporaryName name]) with
        | none => .error .notFound
        | some node =>
          match obstacle? (base.join ⟨name⟩) name with
          | some fault => .error fault
          | none =>
            if disk.node? (disk.placeOf base ++ [name]) = some .directory then .error .isDirectory
            else .ok ((disk.eraseNode (disk.placeOf base ++ [temporaryName name])).setNode
              (disk.placeOf base ++ [name]) node) := by
  have last := endsInSlash_join base h
  rw [rename, resolve_temporary free opens h]
  cases obstacle? (temporary (base.join ⟨name⟩)) (temporaryName name) with
  | some fault => rfl
  | none =>
    simp only [foundAt]
    cases disk.node? (disk.placeOf base ++ [temporaryName name]) with
    | none => rfl
    | some node =>
      simp only [withoutFinalSlashes_eq last, resolve_join free opens h, endsInName_join base h,
        last]
      cases obstacle? (base.join ⟨name⟩) name with
      | some fault => rfl
      | none =>
        simp only [foundAt]
        cases disk.node? (disk.placeOf base ++ [name]) with
        | none => simp
        | some there => simp

theorem removeFile_temporary (free : disk.LinkFree) (opens : disk.OpensPath base)
    (h : IsName name) :
    disk.removeFile (temporary (base.join ⟨name⟩)) =
      match obstacle? (temporary (base.join ⟨name⟩)) (temporaryName name) with
      | some fault => .error fault
      | none =>
        match disk.node? (disk.placeOf base ++ [temporaryName name]) with
        | none => .error .notFound
        | some .directory => .error .isDirectory
        | some _ => .ok (disk.eraseNode (disk.placeOf base ++ [temporaryName name])) := by
  rw [removeFile, resolve_temporary free opens h]
  cases obstacle? (temporary (base.join ⟨name⟩)) (temporaryName name) with
  | some fault => rfl
  | none =>
    simp only [foundAt]
    cases disk.node? (disk.placeOf base ++ [temporaryName name]) with
    | none => rfl
    | some node => cases node <;> rfl

/-- What comes of creating the directory of an output that is there already. -/
def parentResult (base : Path) : Except Fault Unit :=
  if base.text = [] ∨ ancestors base.bare = [] then .ok ()
  else
    match refusal? base.bare with
    | some fault => .error fault
    | none => .ok ()

theorem createDirectory_of_opensPath (free : disk.LinkFree) (opens : disk.OpensPath path)
    (last : endsInSlash path = false) :
    disk.createDirectory path = .error ((refusal? path).getD .alreadyExists) := by
  rw [createDirectory, withoutFinalSlashes_eq last, resolve_of_opensPath free (by simp) opens]
  cases refusal? path <;> rfl

theorem isDirectory_of_opensPath (free : disk.LinkFree) (opens : disk.OpensPath path) :
    disk.isDirectory path = (refusal? path).isNone := by
  rw [isDirectory, resolve_of_opensPath free (by simp) opens]
  cases refusal? path <;> rfl

theorem refusal?_ne_notFound (filled : path.text ≠ []) : refusal? path ≠ some .notFound := by
  rw [refusal?]
  split_ifs <;> simp_all

/-- The directory of an output is not created again. -/
theorem createParent_join (free : disk.LinkFree) (opens : disk.OpensPath base) (h : IsName name) :
    disk.createParent (base.join ⟨name⟩) = (parentResult base, disk) := by
  have opens_bare := (opensPath_bare_iff disk base).mpr opens
  rw [createParent, parent?_join base h, parentResult]
  simp only [List.isEmpty_iff, bare_text_eq_nil_iff]
  by_cases empty : base.text = []
  · simp [empty]
  have filled : base.bare.text ≠ [] := fun none => empty ((bare_text_eq_nil_iff base).mp none)
  rw [if_neg empty, createDirectories]
  cases above : ancestors base.bare with
  | nil => simp [createNested]
  | cons path outer =>
    have first : path = base.bare := by
      rw [ancestors] at above
      split at above
      · simp at above
      · exact (List.cons.inj above).1.symm
    have last : endsInSlash base.bare = false := by
      rcases endsInSlash_bare base with last | root
      · exact last
      · have none : ancestors ⟨['/']⟩ = [] := by decide
        rw [root, none] at above
        simp at above
    rw [first, createNested, createDirectory_of_opensPath free opens_bare last,
      isDirectory_of_opensPath free opens_bare]
    cases refused : refusal? base.bare with
    | none => simp [empty]
    | some fault =>
      have other : fault ≠ .notFound := fun same =>
        refusal?_ne_notFound filled (same ▸ refused)
      cases fault <;> simp_all

end Output

end ComponentPack.Files.Disk
