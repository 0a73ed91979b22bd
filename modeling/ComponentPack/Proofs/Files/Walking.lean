import ComponentPack.Files.Walk
import ComponentPack.Proofs.Dictionary
import ComponentPack.Proofs.Files.Resolution
import Mathlib.Data.List.Nodup
import Mathlib.Data.List.Perm.Subperm

/-!
Walks through a tree of files without links. Whatever the order in which the names of a directory
are listed, a walk that meets no fault meets each file below the directory once, and it meets a
fault if and only if the path of some directory is too long to be opened.
-/

set_option autoImplicit false

namespace ComponentPack

open List

namespace Path

/-- A path below another one, by the names on the way. -/
def joinAll (base : Path) (names : List Text) : Path :=
  names.foldl (fun path name => path.join ⟨name⟩) base

theorem joinAll_cons (base : Path) (name : Text) (names : List Text) :
    base.joinAll (name :: names) = (base.join ⟨name⟩).joinAll names := rfl

theorem joinAll_append (base : Path) (a b : List Text) :
    base.joinAll (a ++ b) = (base.joinAll a).joinAll b := foldl_append

theorem joinAll_concat (base : Path) (names : List Text) (name : Text) :
    base.joinAll (names ++ [name]) = (base.joinAll names).join ⟨name⟩ := joinAll_append base names _

theorem parts_joinAll (base : Path) {names : List Text} (valid : ∀ name ∈ names, IsName name) :
    (base.joinAll names).parts = base.parts ++ names.map .name := by
  induction names generalizing base with
  | nil => simp [joinAll]
  | cons name names ih =>
    rw [forall_mem_cons] at valid
    rw [joinAll_cons, ih _ valid.2, parts_join base valid.1]
    simp

theorem prefix_joinAll (base : Path) {names : List Text} (valid : ∀ name ∈ names, IsName name) :
    base.text <+: (base.joinAll names).text := by
  induction names generalizing base with
  | nil => exact prefix_rfl
  | cons name names ih =>
    rw [forall_mem_cons] at valid
    exact (prefix_join base valid.1).trans (ih _ valid.2)

end Path

/-- The path of what a walk meets. -/
def Files.Visit.path : Visit → Path
  | file path => path
  | fault (.unreadable path _) => path
  | fault (.loop link _) => link

namespace Files.Disk

open ComponentPack.Path

variable {names : List Text} {name : Text} {disk : Disk} {path : Path} {location : Location}
  {visit : Visit} {depth : Nat}

theorem placeOf_joinAll (disk : Disk) (base : Path) (valid : ∀ name ∈ names, IsName name) :
    disk.placeOf (base.joinAll names) = disk.placeOf base ++ names := by
  induction names generalizing base with
  | nil => simp [joinAll]
  | cons name names ih =>
    rw [forall_mem_cons] at valid
    rw [joinAll_cons, ih _ valid.2, placeOf_join disk base valid.1]
    simp

/-- A name that a file can have. -/
structure IsFileName (name : Text) : Prop extends IsName name where
  nul : ∀ c ∈ name, c.toNat ≠ 0
  short : name.byteSize ≤ maxName

/-- What files and directories form: names are those of files, and what is there lies in a
directory. -/
structure IsTree (disk : Disk) : Prop where
  root : disk.nodes.get? [] = none
  isFileName : ∀ l name, disk.node? (l ++ [name]) ≠ none → IsFileName name
  parent : ∀ l name, disk.node? (l ++ [name]) ≠ none → disk.node? l = some .directory

theorem isFileName_iff :
    IsFileName name ↔ (name ≠ [] ∧ '/' ∉ name ∧ name ≠ ['.'] ∧ name ≠ ['.', '.']) ∧
      (name.any fun c => c.toNat = 0) = false ∧ name.byteSize ≤ maxName := by
  rw [any_eq_false]
  simp only [decide_eq_true_eq]
  exact ⟨fun h => ⟨⟨h.nonempty, h.slash, h.here, h.up⟩, h.nul, h.short⟩,
    fun ⟨⟨nonempty, slash, here, up⟩, nul, short⟩ => ⟨⟨nonempty, slash, here, up⟩, nul, short⟩⟩

instance (name : Text) : Decidable (IsFileName name) := decidable_of_iff' _ isFileName_iff

/-- Whether files and directories form a tree is told by the entries of the disk. -/
theorem isTree_iff :
    disk.IsTree ↔ ∀ e ∈ disk.nodes.entries, e.1 ≠ [] ∧ IsFileName (e.1.getLastD []) ∧
      disk.node? e.1.dropLast = some .directory := by
  have inner (l : Location) (name : Text) :
      disk.node? (l ++ [name]) = disk.nodes.get? (l ++ [name]) := by cases l <;> rfl
  constructor
  · rintro tree ⟨l, node⟩ member
    have found := Dictionary.get?_eq_some_iff.mpr member
    rcases eq_nil_or_concat l with rfl | ⟨above, name, rfl⟩
    · rw [tree.root] at found
      simp at found
    · have present : disk.node? (above ++ [name]) ≠ none := by
        rw [inner, ← concat_eq_append, found]
        simp
      simpa using ⟨tree.isFileName _ _ present, tree.parent _ _ present⟩
  · intro known
    have named (l : Location) (name : Text) (present : disk.node? (l ++ [name]) ≠ none) :
        IsFileName name ∧ disk.node? l = some .directory := by
      obtain ⟨node, found⟩ := Option.ne_none_iff_exists'.mp present
      rw [inner] at found
      simpa using known _ (Dictionary.get?_eq_some_iff.mp found)
    refine ⟨?_, fun l name present => (named l name present).1,
      fun l name present => (named l name present).2⟩
    cases found : disk.nodes.get? [] with
    | none => rfl
    | some node => exact absurd rfl (known _ (Dictionary.get?_eq_some_iff.mp found)).1

instance (disk : Disk) : Decidable disk.IsTree := decidable_of_iff' _ isTree_iff

/-- Whether a node is a link. -/
def isLink : Node → Bool
  | .link _ => true
  | _ => false

theorem linkFree_iff :
    disk.LinkFree ↔ (disk.nodes.entries.all fun e => e.1.isEmpty || !isLink e.2) = true := by
  rw [all_eq_true]
  constructor
  · rintro free ⟨l, node⟩ member
    have found := Dictionary.get?_eq_some_iff.mpr member
    cases l with
    | nil => rfl
    | cons name names =>
      cases node with
      | link target => exact absurd found (free (name :: names) target)
      | file content => rfl
      | directory => rfl
  · intro known l target found
    cases l with
    | nil => simp [node?] at found
    | cons name names =>
      have member := known _ (Dictionary.get?_eq_some_iff.mp found)
      simp [isLink] at member

instance (disk : Disk) : Decidable disk.LinkFree := decidable_of_iff' _ linkFree_iff

namespace IsTree

variable {disk : Disk} {l : Location}

/-- What lies above something is a directory. -/
theorem directory_of_append (tree : disk.IsTree) (filled : names ≠ [])
    (present : disk.node? (l ++ names) ≠ none) : disk.node? l = some .directory := by
  induction names using List.reverseRecOn with
  | nil => exact absurd rfl filled
  | append_singleton names name ih =>
    rw [← append_assoc] at present
    have above := tree.parent _ _ present
    by_cases last : names = []
    · rwa [last, append_nil] at above
    · exact ih last (by rw [above]; simp)

theorem isFileName_of_mem (tree : disk.IsTree) (present : disk.node? (l ++ names) ≠ none)
    (member : name ∈ names) : IsFileName name := by
  obtain ⟨before, after, rfl⟩ := append_of_mem member
  have whole : l ++ (before ++ name :: after) = l ++ before ++ [name] ++ after := by simp
  rw [whole] at present
  refine tree.isFileName (l ++ before) name ?_
  by_cases last : after = []
  · rwa [last, append_nil] at present
  · rw [tree.directory_of_append last present]
    simp

theorem isName_of_mem (tree : disk.IsTree) (present : disk.node? (l ++ names) ≠ none) :
    ∀ name ∈ names, IsName name :=
  fun _ member => (tree.isFileName_of_mem present member).toIsName

/-- No location is longer than there are nodes, as everything above it is a node. -/
theorem length_le (tree : disk.IsTree) (present : disk.node? l ≠ none) :
    l.length ≤ disk.nodes.size := by
  let above := (List.range l.length).map fun n => l.take (n + 1)
  have distinct : above.Nodup := by
    refine List.Nodup.map_on (fun a ha b hb same => ?_) nodup_range
    have lengths := congrArg List.length same
    rw [mem_range] at ha hb
    simp only [length_take] at lengths
    omega
  have known : above ⊆ disk.nodes.keys := by
    intro key member
    obtain ⟨n, short, rfl⟩ := mem_map.mp member
    rw [mem_range] at short
    have there : disk.node? (l.take (n + 1)) ≠ none := by
      by_cases last : l.drop (n + 1) = []
      · rwa [take_of_length_le (drop_eq_nil_iff.mp last)]
      · rw [tree.directory_of_append last (by rwa [take_append_drop])]
        simp
    obtain ⟨node, found⟩ := Option.ne_none_iff_exists'.mp there
    refine Dictionary.mem_keys_iff.mpr ⟨node, ?_⟩
    cases taken : l.take (n + 1) with
    | nil =>
      have lengths := congrArg List.length taken
      simp only [length_take, length_nil] at lengths
      omega
    | cons first rest => rwa [taken] at found
  calc l.length = above.length := by simp [above]
    _ ≤ disk.nodes.keys.length := (subperm_of_subset distinct known).length_le
    _ = disk.nodes.size := by simp [Dictionary.keys, Dictionary.size]

end IsTree

theorem mem_namesIn {l : Location} : name ∈ disk.namesIn l ↔ disk.node? (l ++ [name]) ≠ none := by
  have inner : disk.node? (l ++ [name]) = disk.nodes.get? (l ++ [name]) := by
    cases l <;> rfl
  rw [inner, namesIn, mem_filterMap, Option.ne_none_iff_exists']
  constructor
  · rintro ⟨key, member, named⟩
    split at named
    · next above =>
      obtain ⟨front, rfl⟩ := List.getLast?_eq_some_iff.mp named
      rw [dropLast_concat] at above
      exact above ▸ Dictionary.mem_keys_iff.mp member
    · simp at named
  · intro found
    refine ⟨l ++ [name], Dictionary.mem_keys_iff.mpr found, ?_⟩
    rw [dropLast_concat, if_pos rfl, List.getLast?_concat]

theorem nodup_namesIn (disk : Disk) (l : Location) : (disk.namesIn l).Nodup := by
  refine List.Nodup.filterMap (fun a b name ha hb => ?_) disk.nodes.nodup_keys
  rw [Option.mem_def] at ha hb
  split at ha
  · split at hb
    · next above other =>
      obtain ⟨front, rfl⟩ := List.getLast?_eq_some_iff.mp ha
      obtain ⟨front', rfl⟩ := List.getLast?_eq_some_iff.mp hb
      rw [dropLast_concat] at above other
      rw [above, other]
    · simp at hb
  · simp at ha

/-- The names in each directory, in whatever order. -/
def Lists (disk : Disk) (list : Location → List Text) : Prop :=
  ∀ l, (list l).Perm (disk.namesIn l)

namespace Lists

variable {disk : Disk} {list : Location → List Text}

theorem namesIn (disk : Disk) : disk.Lists disk.namesIn := fun _ => .refl _

theorem mem_iff (lists : disk.Lists list) {l : Location} :
    name ∈ list l ↔ disk.node? (l ++ [name]) ≠ none := by
  rw [(lists l).mem_iff, mem_namesIn]

theorem nodup (lists : disk.Lists list) (l : Location) : (list l).Nodup :=
  (lists l).nodup_iff.mpr (disk.nodup_namesIn l)

end Lists

theorem OpensPath.join {base : Path} (opens : disk.OpensPath base) (h : IsFileName name)
    (there : disk.node? (disk.placeOf base ++ [name]) = some .directory) :
    disk.OpensPath (base.join ⟨name⟩) := by
  rw [OpensPath, start_join disk base h.toIsName, namesOf_join base h.toIsName, Opens.append_iff]
  refine ⟨opens, opens.placeOf_directory, .inr (.inr h.short), ?_⟩
  rwa [enter_of_isName h.toIsName]

theorem OpensPath.joinAll {base : Path} (opens : disk.OpensPath base) (tree : disk.IsTree)
    (there : disk.node? (disk.placeOf base ++ names) = some .directory) :
    disk.OpensPath (base.joinAll names) := by
  induction names using List.reverseRecOn with
  | nil => exact opens
  | append_singleton names name ih =>
    have present : disk.node? (disk.placeOf base ++ (names ++ [name])) ≠ none := by simp [there]
    have valid := tree.isName_of_mem present
    rw [← append_assoc] at there present
    have above := tree.parent _ _ present
    have place := placeOf_joinAll disk base fun n member => valid n (mem_append_left _ member)
    rw [joinAll_concat]
    exact (ih above).join (tree.isFileName _ _ present) (by rw [place, there])

theorem obstacle?_of_isFileName (h : IsFileName name) (path : Path) :
    obstacle? path name = refusal? path := by
  rw [obstacle?, if_neg (by have := h.short; omega)]
  cases refusal? path <;> rfl

/-- What a walk meets at one place, with what it would meet below. -/
def meet (disk : Disk) (path : Path) (location : Location) (inner : List Visit) : List Visit :=
  match disk.node? location with
  | some (.file _) => [.file path]
  | some .directory =>
    match refusal? path with
    | some e => [.fault (.unreadable path e)]
    | none => inner
  | _ => []

/-- What a walk meets below a directory, when no links lead elsewhere. -/
def below (disk : Disk) (list : Location → List Text) : Nat → Path → Location → List Visit
  | 0, _, _ => []
  | depth + 1, path, location =>
    (list location).flatMap fun name =>
      let child := path.join ⟨name⟩
      let there := location ++ [name]
      disk.meet child there (below disk list depth child there)

theorem mem_meet_iff {inner : List Visit} :
    visit ∈ disk.meet path location inner ↔
      (∃ content, disk.node? location = some (.file content) ∧ visit = .file path) ∨
        disk.node? location = some .directory ∧
          ((∃ e, refusal? path = some e ∧ visit = .fault (.unreadable path e)) ∨
            refusal? path = none ∧ visit ∈ inner) := by
  rw [meet]
  cases disk.node? location with
  | none => simp
  | some node =>
    cases node with
    | file content => simp
    | link target => simp
    | directory => cases refusal? path <;> simp

section Walks

variable {disk : Disk} {list : Location → List Text}

theorem visits_eq_below (tree : disk.IsTree) (free : disk.LinkFree) (lists : disk.Lists list)
    (depth : Nat) (above : List (Path × Location)) (opens : disk.OpensPath path) :
    disk.visits list depth above path (disk.placeOf path) =
      disk.below list depth path (disk.placeOf path) := by
  induction depth generalizing above path with
  | zero => rfl
  | succ depth ih =>
    rw [visits, below]
    refine flatMap_congr fun name member => ?_
    have named := tree.isFileName _ _ (lists.mem_iff.mp member)
    simp only [meet]
    cases there : disk.node? (disk.placeOf path ++ [name]) with
    | none => rfl
    | some node =>
      cases node with
      | file content => rfl
      | link target => exact absurd there (free _ target)
      | directory =>
        simp only [resolve_join free opens named.toIsName, obstacle?_of_isFileName named]
        cases refusal? (path.join ⟨name⟩) with
        | some e => rfl
        | none =>
          have inner := ih ((path, disk.placeOf path) :: above) (opens.join named there)
          rwa [placeOf_join disk path named.toIsName] at inner

/-- A walk begins at a directory, and meets what is below. -/
theorem walkBelow?_eq_some_iff (tree : disk.IsTree) (free : disk.LinkFree) (lists : disk.Lists list)
    {visits : List Visit} :
    disk.walkBelow? list path = some visits ↔
      refusal? path = none ∧ disk.OpensPath path ∧
        visits = disk.below list disk.maxDepth path (disk.placeOf path) := by
  rw [walkBelow?]
  constructor
  · intro walked
    split at walked
    · next location resolved =>
      obtain ⟨accepted, opens, rfl⟩ := (resolve_eq_directory_iff free (by simp)).mp resolved
      rw [visits_eq_below tree free lists _ _ opens, Option.some.injEq] at walked
      exact ⟨accepted, opens, walked.symm⟩
    · simp at walked
  · rintro ⟨accepted, opens, rfl⟩
    rw [(resolve_eq_directory_iff free (by simp)).mpr ⟨accepted, opens, rfl⟩]
    simp only [visits_eq_below tree free lists _ _ opens]

/-- What is met is a file, or a directory that cannot be opened. -/
theorem exists_of_mem_below (tree : disk.IsTree) (lists : disk.Lists list)
    (met : visit ∈ disk.below list depth path location) :
    ∃ names, names ≠ [] ∧ (∀ name ∈ names, IsName name) ∧
      ((∃ content, disk.node? (location ++ names) = some (.file content) ∧
          visit = .file (path.joinAll names)) ∨
        ∃ e, disk.node? (location ++ names) = some .directory ∧
          refusal? (path.joinAll names) = some e ∧
          visit = .fault (.unreadable (path.joinAll names) e)) := by
  induction depth generalizing path location with
  | zero => simp [below] at met
  | succ depth ih =>
    rw [below, mem_flatMap] at met
    obtain ⟨name, member, met⟩ := met
    have named := (tree.isFileName _ _ (lists.mem_iff.mp member)).toIsName
    rcases mem_meet_iff.mp met with ⟨content, there, rfl⟩ | ⟨there, ⟨e, refused, rfl⟩ | ⟨-, met⟩⟩
    · exact ⟨[name], by simp, by simpa using named, .inl ⟨content, there, rfl⟩⟩
    · exact ⟨[name], by simp, by simpa using named, .inr ⟨e, there, refused, rfl⟩⟩
    · obtain ⟨names, -, valid, found⟩ := ih met
      refine ⟨name :: names, by simp, by simpa using ⟨named, valid⟩, ?_⟩
      rwa [append_assoc, singleton_append] at found

/-- A walk that is deep enough meets a fault, or every file; then every directory can be opened. -/
theorem below_complete (tree : disk.IsTree) (lists : disk.Lists list) (path : Path) {node : Node}
    (filled : names ≠ []) (there : disk.node? (location ++ names) = some node)
    (deep : names.length ≤ depth) :
    (∃ fault, .fault fault ∈ disk.below list depth path location) ∨
      ((∀ content, node = .file content →
          .file (path.joinAll names) ∈ disk.below list depth path location) ∧
        (node = .directory → refusal? (path.joinAll names) = none)) := by
  induction names generalizing depth path location with
  | nil => exact absurd rfl filled
  | cons name names ih =>
    obtain ⟨depth, rfl⟩ : ∃ n, depth = n + 1 := ⟨depth - 1, by simp at deep; omega⟩
    have whole : location ++ name :: names = location ++ [name] ++ names := by simp
    rw [whole] at there
    have member : name ∈ list location := by
      rw [lists.mem_iff]
      by_cases last : names = []
      · rw [last, append_nil] at there
        simp [there]
      · simp [tree.directory_of_append last (by rw [there]; simp)]
    simp only [below, mem_flatMap, mem_meet_iff]
    by_cases last : names = []
    · subst last
      rw [append_nil] at there
      by_cases blocked : node = .directory ∧ refusal? (path.join ⟨name⟩) ≠ none
      · obtain ⟨rfl, refused⟩ := blocked
        obtain ⟨e, refused⟩ := Option.ne_none_iff_exists'.mp refused
        exact .inl ⟨_, name, member, .inr ⟨there, .inl ⟨e, refused, rfl⟩⟩⟩
      · refine .inr ⟨?_, fun directory => by_contra fun refused => blocked ⟨directory, refused⟩⟩
        rintro content rfl
        exact ⟨name, member, .inl ⟨content, there, rfl⟩⟩
    · have directory := tree.directory_of_append last (by rw [there]; simp)
      cases refused : refusal? (path.join ⟨name⟩) with
      | some e => exact .inl ⟨_, name, member, .inr ⟨directory, .inl ⟨e, refused, rfl⟩⟩⟩
      | none =>
        have inner := ih (path.join ⟨name⟩) last there (by simpa using deep)
        refine inner.imp ?_ (.imp_left ?_)
        · rintro ⟨fault, met⟩
          exact ⟨fault, name, member, .inr ⟨directory, .inr ⟨refused, met⟩⟩⟩
        · intro met content file
          exact ⟨name, member, .inr ⟨directory, .inr ⟨refused, met content file⟩⟩⟩

/-- The names below a directory on the way to what is met there. -/
theorem names_of_mem_meet (tree : disk.IsTree) (lists : disk.Lists list)
    (met : visit ∈ disk.meet path location (disk.below list depth path location)) :
    ∃ names, (∀ name ∈ names, IsName name) ∧ visit.path = path.joinAll names := by
  rcases mem_meet_iff.mp met with ⟨-, -, rfl⟩ | ⟨-, ⟨-, -, rfl⟩ | ⟨-, met⟩⟩
  · exact ⟨[], by simp, rfl⟩
  · exact ⟨[], by simp, rfl⟩
  · obtain ⟨names, -, valid, ⟨-, -, rfl⟩ | ⟨-, -, -, rfl⟩⟩ := exists_of_mem_below tree lists met
    · exact ⟨names, valid, rfl⟩
    · exact ⟨names, valid, rfl⟩

/-- Nothing is met twice: paths below different names of a directory have different parts. -/
theorem nodup_below (tree : disk.IsTree) (lists : disk.Lists list) (depth : Nat) (path : Path)
    (location : Location) : (disk.below list depth path location).Nodup := by
  induction depth generalizing path location with
  | zero => exact nodup_nil
  | succ depth ih =>
    rw [below, nodup_flatMap]
    refine ⟨fun name _ => ?_, (lists.nodup location).imp_of_mem fun {a b} ha hb other => ?_⟩
    · rw [meet]
      split
      · exact nodup_singleton _
      · split
        · exact nodup_singleton _
        · exact ih _ _
      · exact nodup_nil
    · intro visit met met'
      obtain ⟨names, valid, first⟩ := names_of_mem_meet tree lists met
      obtain ⟨names', valid', second⟩ := names_of_mem_meet tree lists met'
      have named := tree.isName_of_mem (lists.mem_iff.mp ha) a (by simp)
      have named' := tree.isName_of_mem (lists.mem_iff.mp hb) b (by simp)
      have same := congrArg Path.parts (first.symm.trans second)
      rw [parts_joinAll _ valid, parts_joinAll _ valid', parts_join path named,
        parts_join path named'] at same
      simp only [append_assoc, singleton_append, append_cancel_left_eq,
        List.cons.injEq, Part.name.injEq] at same
      exact other same.1

end Walks

end Files.Disk

end ComponentPack
