import ComponentPack.Proofs.Files.Following

/-!
Where paths lead on a disk without links. A path is looked up name by name; without links its place
is told by its spelling alone, and the disk only decides whether the directories on the way are
there. A name joined to such a path is then looked up in one directory.
-/

set_option autoImplicit false

namespace ComponentPack.Files.Disk

open ComponentPack.Path

variable {name : Text} {other disk : Disk} {path : Path} {l : Location}

/-- Nothing on the disk is a link. -/
def LinkFree (disk : Disk) : Prop := ∀ location target, disk.node? location ≠ some (.link target)

/-- The location that names lead to from a directory. -/
def place (here : Location) (names : List Text) : Location := names.foldl enter here

/-- The location that a path leads to. -/
def placeOf (disk : Disk) (path : Path) : Location := place (disk.start path) (namesOf path)

/-- Names that are not too long to be looked up. -/
def Fits (name : Text) : Prop := name = ['.'] ∨ name = ['.', '.'] ∨ name.byteSize ≤ maxName

/-- Names lead from directory to directory. -/
def Opens (disk : Disk) (here : Location) : List Text → Prop
  | [] => disk.node? here = some .directory
  | name :: names =>
    disk.node? here = some .directory ∧ Fits name ∧ Opens disk (enter here name) names

/-- A path leads through directories to a directory. -/
def OpensPath (disk : Disk) (path : Path) : Prop := disk.Opens (disk.start path) (namesOf path)

theorem enter_of_isName (h : IsName name) (here : Location) : enter here name = here ++ [name] := by
  rw [enter, if_neg h.here, if_neg h.up]

theorem place_append (here : Location) (a b : List Text) :
    place here (a ++ b) = place (place here a) b := List.foldl_append

theorem place_dots {dots : List Text} (only : ∀ name ∈ dots, name = ['.']) (here : Location) :
    place here dots = here := by
  induction dots with
  | nil => rfl
  | cons name dots ih =>
    have dot := only name List.mem_cons_self
    have step : enter here name = here := by rw [enter, if_pos dot]
    rw [place, List.foldl_cons, step]
    exact ih fun other member => only other (List.mem_cons_of_mem name member)

namespace Opens

variable {disk : Disk} {here : Location} {a b names : List Text}

theorem here_directory (h : disk.Opens here names) : disk.node? here = some .directory := by
  cases names with
  | nil => exact h
  | cons name names => exact h.1

theorem place_directory (h : disk.Opens here names) :
    disk.node? (place here names) = some .directory := by
  induction names generalizing here with
  | nil => exact h
  | cons name names ih => exact ih h.2.2

theorem append_iff :
    disk.Opens here (a ++ b) ↔ disk.Opens here a ∧ disk.Opens (place here a) b := by
  induction a generalizing here with
  | nil => exact ⟨fun h => ⟨h.here_directory, h⟩, And.right⟩
  | cons name a ih =>
    simp only [List.cons_append, Opens, ih, and_assoc]
    rfl

theorem of_dots {dots : List Text} (only : ∀ name ∈ dots, name = ['.'])
    (directory : disk.node? here = some .directory) : disk.Opens here dots := by
  induction dots with
  | nil => exact directory
  | cons name dots ih =>
    have dot := only name List.mem_cons_self
    have step : enter here name = here := by rw [enter, if_pos dot]
    refine ⟨directory, .inl dot, ?_⟩
    rw [step]
    exact ih fun other member => only other (List.mem_cons_of_mem name member)

theorem mono (kept : ∀ l, disk.node? l = some .directory → other.node? l = some .directory)
    (h : disk.Opens here names) : other.Opens here names := by
  induction names generalizing here with
  | nil => exact kept here h
  | cons name names ih => exact ⟨kept here h.1, h.2.1, ih h.2.2⟩

end Opens

theorem placeOf_join (disk : Disk) (base : Path) (h : IsName name) :
    disk.placeOf (base.join ⟨name⟩) = disk.placeOf base ++ [name] := by
  rw [placeOf, namesOf_join base h, start_join disk base h, place_append]
  exact enter_of_isName h _

theorem placeOf_bare (disk : Disk) (path : Path) : disk.placeOf path.bare = disk.placeOf path := by
  obtain ⟨dots, split, only⟩ := namesOf_bare path
  rw [placeOf, placeOf, split, start_bare, place_append, place_dots only]

theorem opensPath_bare_iff (disk : Disk) (path : Path) :
    disk.OpensPath path.bare ↔ disk.OpensPath path := by
  obtain ⟨dots, split, only⟩ := namesOf_bare path
  rw [OpensPath, OpensPath, split, start_bare, Opens.append_iff]
  exact ⟨fun h => ⟨h, .of_dots only h.place_directory⟩, And.left⟩

theorem OpensPath.placeOf_directory (h : disk.OpensPath path) :
    disk.node? (disk.placeOf path) = some .directory := Opens.place_directory h

theorem OpensPath.mono (home : other.home = disk.home)
    (kept : ∀ l, disk.node? l = some .directory → other.node? l = some .directory)
    (h : disk.OpensPath path) : other.OpensPath path := by
  have begins : other.start path = disk.start path := by rw [start, start, home]
  rw [OpensPath, begins]
  exact Opens.mono kept h

theorem placeOf_eq (home : other.home = disk.home) (path : Path) :
    other.placeOf path = disk.placeOf path := by
  rw [placeOf, placeOf, start, start, home]

section Resolve

variable {disk : Disk} {purpose : Purpose}

/-- A look-up ends at a directory if and only if the names lead through directories. -/
theorem leads_directory_iff (free : disk.LinkFree) {links : Nat} {asDirectory : Bool}
    (safe : asDirectory = true → purpose ≠ .creation) {here : Location} {names : List Text} :
    disk.Leads purpose links asDirectory here names (.present l .directory) ↔
      disk.Opens here names ∧ l = place here names := by
  constructor
  · intro leads
    generalize target : Found.present l .directory = found at leads
    induction leads with
    | here there =>
      cases target
      exact ⟨there, rfl⟩
    | dots directory dots _ ih =>
      obtain ⟨opens, rfl⟩ := ih safe target
      exact ⟨⟨directory, dots.imp_right .inl, opens⟩, rfl⟩
    | @name _ _ here name _ _ _ asks _ _ _ ih =>
      have there : enter here name = here ++ [name] := by
        rw [enter, if_neg asks.dot, if_neg asks.up]
      rw [← there] at ih
      obtain ⟨opens, rfl⟩ := ih safe target
      exact ⟨⟨asks.directory, .inr (.inr (Nat.le_of_not_lt asks.short)), opens⟩, rfl⟩
    | absent => simp at target
    | entry _ _ there | link _ there => exact absurd there (free _ _)
  · rintro ⟨opens, rfl⟩
    induction names generalizing here with
    | nil => exact .here opens (.inl rfl)
    | cons name names ih =>
      obtain ⟨directory, fits, later⟩ := opens
      by_cases dots : name = ['.'] ∨ name = ['.', '.']
      · exact .dots directory dots (ih later)
      · obtain ⟨dot, up⟩ := not_or.mp dots
        have there : enter here name = here ++ [name] := by rw [enter, if_neg dot, if_neg up]
        have short := (fits.resolve_left dot).resolve_left up
        have goes := ih later
        rw [place, List.foldl_cons, there]
        rw [there] at later goes
        exact .name ⟨directory, dot, up, fun guard => safe guard.2.1 guard.2.2, by omega⟩
          later.here_directory (by simp) goes

theorem OpensPath.reaches (free : disk.LinkFree) (opens : disk.OpensPath path) :
    disk.Reaches path (disk.placeOf path) :=
  (leads_directory_iff free (by simp)).mpr ⟨opens, rfl⟩

theorem Reaches.opensPath (free : disk.LinkFree) (reaches : disk.Reaches path l) :
    disk.OpensPath path ∧ l = disk.placeOf path :=
  (leads_directory_iff free (by simp)).mp reaches

theorem resolve_eq_directory_iff (free : disk.LinkFree) (safe : purpose ≠ .creation) :
    disk.resolve purpose path = .ok (.present l .directory) ↔
      refusal? path = none ∧ disk.OpensPath path ∧ l = disk.placeOf path := by
  rw [resolve_eq_ok_iff, leads_directory_iff free fun _ => safe]
  rfl

theorem resolve_of_opensPath (free : disk.LinkFree) (safe : purpose ≠ .creation)
    (opens : disk.OpensPath path) :
    disk.resolve purpose path =
      match refusal? path with
      | some fault => .error fault
      | none => .ok (.present (disk.placeOf path) .directory) := by
  cases refused : refusal? path with
  | some fault => rw [resolve_eq, refused]
  | none => exact (resolve_eq_directory_iff free safe).mpr ⟨refused, opens, rfl⟩

/-- A name in a directory that a path leads to. -/
theorem resolve_join (free : disk.LinkFree) {base : Path} (opens : disk.OpensPath base)
    {name : Text} (h : IsName name) :
    disk.resolve purpose (base.join ⟨name⟩) =
      match obstacle? (base.join ⟨name⟩) name with
      | some fault => .error fault
      | none => .ok (disk.foundAt (disk.placeOf base ++ [name])) :=
  (opens.reaches free).resolve_join h (.inr (free _))

/-- What is found under a name lies in a directory that the path before it leads to. -/
theorem opensPath_of_resolve_join (free : disk.LinkFree) {base : Path} (h : IsName name)
    {found : Found} (resolved : disk.resolve purpose (base.join ⟨name⟩) = .ok found) :
    disk.OpensPath base := by
  obtain ⟨above, reaches, -⟩ := of_resolve_join_eq_ok h resolved
  exact (reaches.opensPath free).1

end Resolve

end ComponentPack.Files.Disk
