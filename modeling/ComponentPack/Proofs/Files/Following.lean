import ComponentPack.Proofs.Files.Spelling

/-!
Where paths lead on a disk with links. A look-up that succeeds goes from directory to directory,
through the links on its way; a path that ends in a name is looked up in the directory that the path
before it leads to.
-/

set_option autoImplicit false

namespace ComponentPack.Files.Disk

open ComponentPack.Path List

variable {name : Text} {other : Disk} {path : Path}

/-- The location that a name leads to from a directory. -/
def enter (here : Location) (name : Text) : Location :=
  if name = ['.'] then here
  else if name = ['.', '.'] then here.dropLast
  else here ++ [name]

/-- A name is looked up in a directory. -/
structure Asks (disk : Disk) (purpose : Purpose) (asDirectory : Bool) (here : Location)
    (name : Text) (rest : List Text) : Prop where
  directory : disk.node? here = some .directory
  dot : name ≠ ['.']
  up : name ≠ ['.', '.']
  creates : ¬ (rest.isEmpty = true ∧ asDirectory = true ∧ purpose = .creation)
  short : ¬ maxName < name.byteSize

theorem Asks.again {disk : Disk} {purpose purpose' : Purpose} {asDirectory asDirectory' : Bool}
    {here : Location} {rest rest' : List Text} (asks : disk.Asks purpose asDirectory here name rest)
    (creates : ¬ (rest'.isEmpty = true ∧ asDirectory' = true ∧ purpose' = .creation)) :
    disk.Asks purpose' asDirectory' here name rest' :=
  ⟨asks.directory, asks.dot, asks.up, creates, asks.short⟩

/-- A look-up that succeeds. -/
inductive Leads (disk : Disk) (purpose : Purpose) :
    Nat → Bool → Location → List Text → Found → Prop where
  | here {links asDirectory here node} (there : disk.node? here = some node)
      (fits : node = .directory ∨ asDirectory = false) :
      Leads disk purpose links asDirectory here [] (.present here node)
  | dots {links asDirectory here name rest found} (directory : disk.node? here = some .directory)
      (dots : name = ['.'] ∨ name = ['.', '.'])
      (later : Leads disk purpose links asDirectory (enter here name) rest found) :
      Leads disk purpose links asDirectory here (name :: rest) found
  | name {links asDirectory here name rest found node}
      (asks : disk.Asks purpose asDirectory here name rest)
      (there : disk.node? (here ++ [name]) = some node) (plain : ∀ target, node ≠ .link target)
      (later : Leads disk purpose links asDirectory (here ++ [name]) rest found) :
      Leads disk purpose links asDirectory here (name :: rest) found
  | absent {links asDirectory here name} (asks : disk.Asks purpose asDirectory here name [])
      (missing : disk.node? (here ++ [name]) = none) :
      Leads disk purpose links asDirectory here [name] (.absent (here ++ [name]))
  | entry {links here name target} (asks : disk.Asks purpose false here name [])
      (kept : purpose = .entry) (there : disk.node? (here ++ [name]) = some (.link target)) :
      Leads disk purpose links false here [name] (.present (here ++ [name]) (.link target))
  | link {links asDirectory here name rest found target}
      (asks : disk.Asks purpose asDirectory here name rest)
      (there : disk.node? (here ++ [name]) = some (.link target))
      (followed : ¬ (rest.isEmpty = true ∧ purpose = .entry ∧ (!asDirectory) = true))
      (later : Leads disk purpose links (asDirectory || rest.isEmpty && endsInSlash target)
        (if target.isAbsolute then [] else here) (namesOf target ++ rest) found) :
      Leads disk purpose (links + 1) asDirectory here (name :: rest) found

/-- Directories and links are kept. -/
structure Keeps (before after : Disk) : Prop where
  home : after.home = before.home
  node : ∀ l node, (∀ content, node ≠ .file content) → before.node? l = some node →
    after.node? l = some node

section Walk

variable {disk : Disk} {purpose : Purpose} {links : Nat} {asDirectory : Bool} {here l : Location}
  {names rest : List Text} {found : Found} {node : Node}

theorem leads_of_walk (walked : disk.walk purpose links asDirectory here names = .ok found) :
    disk.Leads purpose links asDirectory here names found := by
  fun_induction walk disk purpose links asDirectory here names with
  | case1 => cases walked; exact .here ‹_› (.inl rfl)
  | case3 => cases walked; exact .here ‹_› (.inr (eq_false_of_ne_true ‹_›))
  | case5 links asDirectory here rest directory ih =>
    exact .dots directory (.inl rfl) (by simpa [enter] using ih walked)
  | case6 links asDirectory here rest directory _ ih =>
    exact .dots directory (.inr rfl) (by simpa [enter] using ih walked)
  | case9 links asDirectory here name rest directory dot up creates short _ missing empty =>
    cases walked
    obtain rfl := isEmpty_iff.mp empty
    exact .absent ⟨directory, dot, up, creates, short⟩ missing
  | case11 links asDirectory here name rest directory dot up creates short _ target there last =>
    cases walked
    obtain rfl := isEmpty_iff.mp last.1
    obtain rfl : asDirectory = false := by simpa using last.2.2
    exact .entry ⟨directory, dot, up, creates, short⟩ last.2.1 there
  | case13 asDirectory here name rest directory dot up creates short _ target there followed links
      ih =>
    exact .link ⟨directory, dot, up, creates, short⟩ there followed (ih walked)
  | case14 links asDirectory here name rest directory dot up creates short _ node plain there ih =>
    exact .name ⟨directory, dot, up, creates, short⟩ there plain (ih walked)
  | case2 | case4 | case7 | case8 | case10 | case12 | case15 => simp at walked

theorem walk_of_leads (leads : disk.Leads purpose links asDirectory here names found) :
    disk.walk purpose links asDirectory here names = .ok found := by
  induction leads with
  | @here links asDirectory here node there fits =>
    rw [walk, there]
    rcases fits with rfl | rfl
    · rfl
    · cases node <;> rfl
  | dots directory dots later ih =>
    rw [walk, directory, ← ih]
    rcases dots with rfl | rfl <;> rfl
  | @name links asDirectory here name rest found node asks there plain later ih =>
    rw [walk, asks.directory]
    simp only [if_neg asks.dot, if_neg asks.up, if_neg asks.creates, if_neg asks.short, there]
    cases node with
    | link target => exact absurd rfl (plain target)
    | file content => exact ih
    | directory => exact ih
  | absent asks missing =>
    rw [walk, asks.directory]
    simp only [if_neg asks.dot, if_neg asks.up, if_neg asks.creates, if_neg asks.short, missing]
    rfl
  | entry asks kept there =>
    rw [walk, asks.directory]
    simp only [if_neg asks.dot, if_neg asks.up, if_neg asks.short, there, kept]
    rfl
  | link asks there followed later ih =>
    rw [walk, asks.directory]
    simp only [if_neg asks.dot, if_neg asks.up, if_neg asks.creates, if_neg asks.short, there,
      if_neg followed]
    exact ih

namespace Leads

theorem node?_eq (leads : disk.Leads purpose links asDirectory here names (.present l node)) :
    disk.node? l = some node := by
  generalize target : Found.present l node = found at leads
  induction leads with
  | here there | entry _ _ there =>
    cases target
    exact there
  | absent => simp at target
  | dots _ _ _ ih | name _ _ _ _ ih | link _ _ _ _ ih => exact ih target

theorem directory_of_cons (leads : disk.Leads purpose links asDirectory here (name :: rest) found) :
    disk.node? here = some .directory := by
  cases leads with
  | dots directory => exact directory
  | name asks | absent asks | entry asks | link asks => exact asks.directory

/-- Only directories are found before a slash, and no file is created there. -/
theorem of_asDirectory (leads : disk.Leads purpose links asDirectory here names found)
    (slash : asDirectory = true) :
    (∃ l, found = .present l .directory) ∨ purpose ≠ .creation ∧ ∃ l, found = .absent l := by
  induction leads with
  | here _ fits =>
    rcases fits with rfl | plain
    · exact .inl ⟨_, rfl⟩
    · simp [slash] at plain
  | absent asks => exact .inr ⟨fun creates => asks.creates ⟨rfl, slash, creates⟩, _, rfl⟩
  | entry => simp at slash
  | dots _ _ _ ih | name _ _ _ _ ih => exact ih slash
  | link _ _ _ _ ih => exact ih (by rw [slash, Bool.true_or])

/-- A look-up goes the same way on a disk that has the same directories and links. -/
theorem mono (keeps : Keeps disk other)
    (leads : disk.Leads purpose links asDirectory here names (.present l node))
    (there : other.node? l = some node) :
    other.Leads purpose links asDirectory here names (.present l node) := by
  have kept := keeps.node
  have asks' {asDirectory : Bool} {here : Location} {name : Text} {rest : List Text}
      (asks : disk.Asks purpose asDirectory here name rest) :
      other.Asks purpose asDirectory here name rest :=
    ⟨kept _ _ (by simp) asks.directory, asks.dot, asks.up, asks.creates, asks.short⟩
  generalize target : Found.present l node = found at leads
  induction leads with
  | here _ fits =>
    cases target
    exact .here there fits
  | dots directory dots _ ih => exact .dots (kept _ _ (by simp) directory) dots (ih target)
  | @name _ _ _ _ rest _ node' asks there' plain later ih =>
    refine .name (asks' asks) ?_ plain (ih target)
    by_cases file : ∀ content, node' ≠ .file content
    · exact kept _ _ file there'
    · -- Nothing is looked up below a file, so this is where the way ends.
      obtain ⟨content, rfl⟩ := not_forall_not.mp file
      cases rest with
      | nil =>
        cases later with
        | here there'' =>
          cases target
          exact there.trans (there''.symm.trans there')
      | cons =>
        have directory := later.directory_of_cons
        simp [there'] at directory
  | absent => simp at target
  | entry asks last there' => exact .entry (asks' asks) last (kept _ _ (by simp) there')
  | link asks there' followed _ ih =>
    exact .link (asks' asks) (kept _ _ (by simp) there') followed (ih target)

theorem flag (leads : disk.Leads .target links asDirectory here names (.present l .directory))
    (other : Bool) : disk.Leads .target links other here names (.present l .directory) := by
  generalize target : Found.present l .directory = found at leads
  induction leads generalizing other with
  | here there _ =>
    cases target
    exact .here there (.inl rfl)
  | dots directory dots _ ih => exact .dots directory dots (ih other target)
  | name asks there plain _ ih =>
    exact .name (asks.again (by simp)) there plain (ih other target)
  | absent => simp at target
  | entry _ kept => simp at kept
  | link asks there _ _ ih => exact .link (asks.again (by simp)) there (by simp) (ih _ target)

/-- Behind a directory the look-up goes on from there. -/
theorem walk_append (leads : disk.Leads .target links asDirectory here names (.present l .directory))
    (more : rest ≠ []) :
    ∃ left, ∀ purpose asDirectory, disk.walk purpose links asDirectory here (names ++ rest) =
      disk.walk purpose left asDirectory l rest := by
  have filled (names : List Text) : (names ++ rest).isEmpty = false := by simp [more]
  generalize target : Found.present l .directory = found at leads
  induction leads with
  | here =>
    cases target
    exact ⟨_, fun _ _ => rfl⟩
  | dots directory dots _ ih =>
    obtain ⟨left, goes⟩ := ih target
    refine ⟨left, fun purpose asDirectory => ?_⟩
    rw [cons_append, walk, directory, ← goes]
    rcases dots with rfl | rfl <;> rfl
  | name asks there plain _ ih =>
    obtain ⟨left, goes⟩ := ih target
    refine ⟨left, fun purpose asDirectory => ?_⟩
    rw [cons_append, walk, asks.directory, ← goes]
    simp only [if_neg asks.dot, if_neg asks.up, filled, Bool.false_eq_true, false_and, if_false,
      if_neg asks.short, there]
  | absent => simp at target
  | entry _ kept => simp at kept
  | link asks there _ _ ih =>
    obtain ⟨left, goes⟩ := ih target
    refine ⟨left, fun purpose asDirectory => ?_⟩
    rw [cons_append, walk, asks.directory, ← goes]
    simp only [if_neg asks.dot, if_neg asks.up, filled, Bool.false_eq_true, false_and, if_false,
      if_neg asks.short, there, append_assoc, Bool.false_and, Bool.or_false]

theorem split {links : Nat} {asDirectory : Bool} {here : Location} {names : List Text}
    (more : rest ≠ []) (leads : disk.Leads purpose links asDirectory here (names ++ rest) found) :
    ∃ l left, disk.Leads .target links true here names (.present l .directory) ∧
      disk.Leads purpose left asDirectory l rest found := by
  cases names with
  | nil =>
    obtain ⟨name, others, rfl⟩ := exists_cons_of_ne_nil more
    exact ⟨here, links, .here leads.directory_of_cons (.inl rfl), leads⟩
  | cons name names =>
    rw [cons_append] at leads
    generalize whole : names ++ rest = tail at leads
    cases leads with
    | dots directory dots later =>
      obtain ⟨l, left, first, second⟩ := split more (whole ▸ later)
      exact ⟨l, left, .dots directory dots first, second⟩
    | name asks there plain later =>
      obtain ⟨l, left, first, second⟩ := split more (whole ▸ later)
      exact ⟨l, left, .name (asks.again (by simp)) there plain first, second⟩
    | absent => simp [more] at whole
    | entry => simp [more] at whole
    | link asks there followed later =>
      have filled : (names ++ rest).isEmpty = false := by simp [more]
      rw [← whole, filled, Bool.false_and, Bool.or_false, ← append_assoc] at later
      obtain ⟨l, left, first, second⟩ := split more later
      exact ⟨l, left, .link (asks.again (by simp)) there (by simp) (first.flag _), second⟩
termination_by (links, names.length)

end Leads

/-- What stands at a location, as the result of a look-up. -/
def foundAt (disk : Disk) (location : Location) : Found :=
  match disk.node? location with
  | none => .absent location
  | some node => .present location node

/-- One name in a directory, unless it is a link that is followed. -/
theorem walk_name (directory : disk.node? here = some .directory) (h : IsName name)
    (plain : purpose = .entry ∨ ∀ target, disk.node? (here ++ [name]) ≠ some (.link target)) :
    disk.walk purpose links false here [name] =
      if maxName < name.byteSize then .error .nameTooLong
      else .ok (disk.foundAt (here ++ [name])) := by
  rw [walk, directory, foundAt]
  simp only [if_neg h.here, if_neg h.up, Bool.false_eq_true, false_and, and_false, if_false]
  split
  · rfl
  · cases found : disk.node? (here ++ [name]) with
    | none => rfl
    | some node =>
      cases node with
      | link target =>
        rcases plain with rfl | plain
        · rfl
        · exact absurd found (plain target)
      | file content => simp [walk, found]
      | directory => simp [walk, found]

end Walk

/-- Where the look-up of a path begins. -/
def start (disk : Disk) (path : Path) : Location := if path.isAbsolute then [] else disk.home

theorem start_join (disk : Disk) (base : Path) (h : IsName name) :
    disk.start (base.join ⟨name⟩) = disk.start base := by
  rw [start, start, isAbsolute_join base h]

theorem start_bare (disk : Disk) (path : Path) : disk.start path.bare = disk.start path := by
  rw [start, start, isAbsolute_bare]

/-- Why a path is refused before anything is looked up. -/
def refusal? (path : Path) : Option Fault :=
  if path.text.any fun c => c.toNat = 0 then some .nulInName
  else if path.text.isEmpty then some .notFound
  else if maxPath ≤ path.text.byteSize then some .nameTooLong
  else none

/-- Why a path that ends in a name cannot be looked up, whatever is on the disk. -/
def obstacle? (path : Path) (name : Text) : Option Fault :=
  match refusal? path with
  | some fault => some fault
  | none => if maxName < name.byteSize then some .nameTooLong else none

theorem resolve_eq (disk : Disk) (purpose : Purpose) (path : Path) :
    disk.resolve purpose path =
      match refusal? path with
      | some fault => .error fault
      | none =>
        disk.walk purpose maxLinks (endsInSlash path) (disk.start path) (namesOf path) := by
  rw [resolve, refusal?]
  split
  · rfl
  · split
    · rfl
    · split <;> rfl

theorem refusal?_eq_none_iff :
    refusal? path = none ↔
      (∀ c ∈ path.text, c.toNat ≠ 0) ∧ path.text ≠ [] ∧ path.text.byteSize < maxPath := by
  rw [refusal?]
  split_ifs with nul empty long
  · obtain ⟨c, member, zero⟩ := any_eq_true.mp nul
    simp only [false_iff, not_and]
    exact fun none => absurd (of_decide_eq_true zero) (none c member)
  · simp [isEmpty_iff.mp empty]
  · simp [long]
  · simp_all

theorem obstacle?_eq_none (accepted : refusal? path = none) (short : name.byteSize ≤ maxName) :
    obstacle? path name = none := by
  rw [obstacle?, accepted]
  exact if_neg (Nat.not_lt.mpr short)

theorem refusal?_of_isPrefix {first : Path} (inside : first.text <+: path.text)
    (accepted : refusal? path = none) (filled : first.text ≠ []) : refusal? first = none := by
  obtain ⟨nul, -, short⟩ := refusal?_eq_none_iff.mp accepted
  exact refusal?_eq_none_iff.mpr ⟨fun c member => nul c (inside.subset member), filled,
    Nat.lt_of_le_of_lt (Text.byteSize_le_of_isPrefix inside) short⟩

section Resolve

variable {disk : Disk} {purpose : Purpose} {path base : Path} {name : Text} {found : Found}
  {l : Location}

theorem resolve_eq_ok_iff :
    disk.resolve purpose path = .ok found ↔ refusal? path = none ∧
      disk.Leads purpose maxLinks (endsInSlash path) (disk.start path) (namesOf path) found := by
  rw [resolve_eq]
  cases refusal? path with
  | some fault => simp
  | none => exact ⟨fun walked => ⟨rfl, leads_of_walk walked⟩, fun h => walk_of_leads h.2⟩

/-- A path leads to a directory. -/
def Reaches (disk : Disk) (path : Path) (l : Location) : Prop :=
  disk.Leads .target maxLinks true (disk.start path) (namesOf path) (.present l .directory)

theorem isDirectory_iff :
    disk.isDirectory path = true ↔ refusal? path = none ∧ ∃ l, disk.Reaches path l := by
  rw [isDirectory]
  constructor
  · intro opens
    split at opens
    · next l resolved =>
      obtain ⟨accepted, leads⟩ := resolve_eq_ok_iff.mp resolved
      exact ⟨accepted, l, leads.flag true⟩
    · simp at opens
  · rintro ⟨accepted, l, reaches⟩
    rw [resolve_eq_ok_iff.mpr ⟨accepted, reaches.flag _⟩]

theorem Reaches.unique {l' : Location} (first : disk.Reaches path l) (second : disk.Reaches path l') :
    l = l' := by
  have same := (walk_of_leads first).symm.trans (walk_of_leads second)
  simpa using same

theorem start_keeps (keeps : Keeps disk other) (path : Path) :
    other.start path = disk.start path := by
  rw [start, start, keeps.home]

theorem Reaches.mono (keeps : Keeps disk other) (reaches : disk.Reaches path l) :
    other.Reaches path l := by
  rw [Reaches, start_keeps keeps]
  exact Leads.mono keeps reaches (keeps.node l _ (by simp) reaches.node?_eq)

theorem leads_dots_iff {dots : List Text} (only : ∀ name ∈ dots, name = ['.']) {links : Nat}
    {here : Location} :
    disk.Leads .target links true here dots (.present l .directory) ↔
      l = here ∧ disk.node? here = some .directory := by
  induction dots with
  | nil =>
    constructor
    · intro leads
      cases leads with
      | here there => exact ⟨rfl, there⟩
    · rintro ⟨rfl, there⟩
      exact .here there (.inl rfl)
  | cons dot dots ih =>
    obtain ⟨rfl, others⟩ := forall_mem_cons.mp only
    constructor
    · intro leads
      cases leads with
      | dots _ _ later => exact (ih others).mp later
      | name asks | link asks => exact absurd rfl asks.dot
    · exact fun there => .dots there.2 (.inl rfl) ((ih others).mpr there)

/-- Dots at the end of a path do not change where it leads. -/
theorem reaches_bare_iff : disk.Reaches path.bare l ↔ disk.Reaches path l := by
  obtain ⟨dots, names, only⟩ := namesOf_bare path
  rw [Reaches, Reaches, start_bare, names]
  rcases eq_nil_or_concat dots with rfl | ⟨front, dot, rfl⟩
  · rw [append_nil]
  · constructor
    · intro reaches
      obtain ⟨left, goes⟩ := reaches.walk_append (show front.concat dot ≠ [] by simp)
      refine leads_of_walk ((goes _ _).trans (walk_of_leads ?_))
      exact (leads_dots_iff only).mpr ⟨rfl, reaches.node?_eq⟩
    · intro reaches
      obtain ⟨above, left, first, last⟩ := reaches.split (show front.concat dot ≠ [] by simp)
      rwa [((leads_dots_iff only).mp last).1]

/-- A name in a directory that a path leads to, unless a link there is followed. -/
theorem Reaches.resolve_join (reaches : disk.Reaches base l) (h : IsName name)
    (plain : purpose = .entry ∨ ∀ target, disk.node? (l ++ [name]) ≠ some (.link target)) :
    disk.resolve purpose (base.join ⟨name⟩) =
      match obstacle? (base.join ⟨name⟩) name with
      | some fault => .error fault
      | none => .ok (disk.foundAt (l ++ [name])) := by
  rw [resolve_eq, obstacle?]
  cases refusal? (base.join ⟨name⟩) with
  | some fault => rfl
  | none =>
    obtain ⟨left, goes⟩ := Leads.walk_append reaches (cons_ne_nil name [])
    simp only [endsInSlash_join base h, start_join disk base h, namesOf_join base h, goes,
      walk_name reaches.node?_eq h plain]
    split <;> rfl

/-- A path ends in a name, in a directory that is there. -/
structure Entry (disk : Disk) (path : Path) (l : Location) : Prop where
  accepted : refusal? path = none
  parts : ∃ base : Path, ∃ name above, IsName name ∧ path = base.join ⟨name⟩ ∧
    disk.Reaches base above ∧ name.byteSize ≤ maxName ∧ l = above ++ [name]

namespace Entry

theorem mono (keeps : Keeps disk other) (entry : disk.Entry path l) : other.Entry path l := by
  obtain ⟨accepted, base, name, above, named, rfl, reaches, short, rfl⟩ := entry
  exact ⟨accepted, base, name, above, named, rfl, reaches.mono keeps, short, rfl⟩

theorem short {above : Location} (entry : disk.Entry path (above ++ [name])) :
    name.byteSize ≤ maxName := by
  obtain ⟨-, base, name', above', -, -, -, short, same⟩ := entry
  rwa [(append_singleton_inj.mp same).2]

/-- What a path leads to, unless a link there is followed. -/
theorem resolve_eq (entry : disk.Entry path l)
    (plain : purpose = .entry ∨ ∀ target, disk.node? l ≠ some (.link target)) :
    disk.resolve purpose path = .ok (disk.foundAt l) := by
  obtain ⟨accepted, base, name, above, h, rfl, reaches, short, rfl⟩ := entry
  rw [reaches.resolve_join h plain, obstacle?_eq_none accepted short]

theorem unique {l' : Location} (first : disk.Entry path l) (second : disk.Entry path l') :
    l = l' := by
  have same := (first.resolve_eq (.inl rfl)).symm.trans (second.resolve_eq (.inl rfl))
  rw [Except.ok.injEq, foundAt, foundAt] at same
  split at same <;> split at same <;> simp_all

end Entry

theorem of_resolve_join_eq_ok (h : IsName name)
    (resolved : disk.resolve purpose (base.join ⟨name⟩) = .ok found) :
    ∃ above, disk.Reaches base above ∧ disk.Entry (base.join ⟨name⟩) (above ++ [name]) ∧
      (found = disk.foundAt (above ++ [name]) ∨
        purpose ≠ .entry ∧ ∃ target, disk.node? (above ++ [name]) = some (.link target)) := by
  obtain ⟨accepted, leads⟩ := resolve_eq_ok_iff.mp resolved
  rw [endsInSlash_join base h, start_join disk base h, namesOf_join base h] at leads
  obtain ⟨above, left, reaches, last⟩ := leads.split (cons_ne_nil name [])
  have entry (short : ¬ maxName < name.byteSize) :
      disk.Entry (base.join ⟨name⟩) (above ++ [name]) :=
    ⟨accepted, base, name, above, h, rfl, reaches, Nat.le_of_not_lt short, rfl⟩
  refine ⟨above, reaches, ?_⟩
  cases last with
  | dots _ dots => exact (dots.elim h.here h.up).elim
  | name asks there plain later =>
    cases later with
    | here there' => exact ⟨entry asks.short, .inl (by rw [foundAt, there'])⟩
  | absent asks missing => exact ⟨entry asks.short, .inl (by rw [foundAt, missing])⟩
  | entry asks _ there => exact ⟨entry asks.short, .inl (by rw [foundAt, there])⟩
  | @link _ _ _ _ _ _ target asks there followed =>
    exact ⟨entry asks.short, .inr ⟨fun entry => followed ⟨rfl, entry, rfl⟩, target, there⟩⟩

end Resolve

end ComponentPack.Files.Disk
