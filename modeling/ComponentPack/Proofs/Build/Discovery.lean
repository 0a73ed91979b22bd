import ComponentPack.Build.Discovery
import ComponentPack.Proofs.Files.Walking

/-!
What a search for components finds. On a tree without links it succeeds if and only if the directory
and all directories below it can be opened. It then gives each component once, in the order of the
parts of the paths, whatever the order in which directories are listed.
-/

set_option autoImplicit false

namespace ComponentPack

open List

variable {a b path : Path}

namespace Path

namespace Part

theorem lt_iff {a b : Part} :
    a < b ↔ a.rank < b.rank ∨ ∃ s t, a = .name s ∧ b = .name t ∧ s < t := by
  change Part.lt a b = true ↔ _
  cases a <;> cases b <;> simp [Part.lt, rank]

instance : Std.Asymm (α := Part) (· < ·) where
  asymm a b below above := by
    rw [lt_iff] at below above
    rcases below with below | ⟨s, t, rfl, rfl, below⟩
    · rcases above with above | ⟨s, t, rfl, rfl, -⟩
      · omega
      · exact Nat.lt_irrefl _ below
    · rcases above with above | ⟨s', t', same, same', above⟩
      · exact Nat.lt_irrefl _ above
      · cases same
        cases same'
        exact List.lt_asymm below above

instance : Std.Trichotomous (α := Part) (· < ·) where
  trichotomous a b below above := by
    rw [lt_iff, not_or] at below above
    have ranks : a.rank = b.rank := by omega
    cases a <;> cases b <;> try simp [rank] at ranks
    · rfl
    · rfl
    · rfl
    · next s t =>
      have later : ¬ s < t := fun less => below.2 ⟨s, t, rfl, rfl, less⟩
      have earlier : ¬ t < s := fun less => above.2 ⟨t, s, rfl, rfl, less⟩
      exact congrArg name (List.le_antisymm earlier later)

instance : Trans (α := Part) (· < ·) (· < ·) (· < ·) where
  trans {a b c} below above := by
    rw [lt_iff] at below above ⊢
    rcases below with below | ⟨s, t, rfl, rfl, below⟩
    · rcases above with above | ⟨s, t, rfl, rfl, -⟩
      · exact .inl (below.trans above)
      · exact .inl below
    · rcases above with above | ⟨s', t', same, rfl, above⟩
      · exact .inl above
      · cases same
        exact .inr ⟨s, t', rfl, rfl, List.lt_trans below above⟩

end Part

theorem le_iff : a.le b = true ↔ a.parts ≤ b.parts := by
  simp [le, List.not_lt]

theorem le_total (a b : Path) : (a.le b || b.le a) = true := by
  rw [Bool.or_eq_true, le_iff, le_iff]
  exact List.le_total _ _

theorem parts_eq_of_le (below : a.le b = true) (above : b.le a = true) : a.parts = b.parts :=
  List.le_antisymm (le_iff.mp below) (le_iff.mp above)

theorem le_trans (a b c : Path) (hab : a.le b = true) (hbc : b.le c = true) : a.le c = true := by
  rw [le_iff] at *
  rw [← List.not_lt] at *
  intro above
  rcases Classical.em (b.parts < c.parts) with below | apart
  · exact hab (List.lt_trans below above)
  · have same : b.parts = c.parts := List.le_antisymm (List.not_lt.mp hbc) (List.not_lt.mp apart)
    exact hab (same ▸ above)

theorem sort_perm (paths : List Path) : (sort paths).Perm paths := mergeSort_perm paths le

theorem pairwise_sort (paths : List Path) : (sort paths).Pairwise (·.le · = true) :=
  pairwise_mergeSort le_trans le_total paths

end Path

namespace Files.Visit

variable {visits : List Visit}

theorem fault?_eq_none_iff : fault? visits = none ↔ ∀ e, fault e ∉ visits := by
  induction visits with
  | nil => simp [fault?]
  | cons visit visits ih =>
    cases visit with
    | file path => simp [fault?, ih]
    | fault e =>
      simp only [fault?, mem_cons, not_or, reduceCtorEq, false_iff, not_forall]
      exact ⟨e, fun none => none.1 rfl⟩

theorem file_mem_of_mem_files (member : path ∈ files visits) : file path ∈ visits := by
  induction visits with
  | nil => simp [files] at member
  | cons visit visits ih =>
    cases visit with
    | fault e => simp [files] at member
    | file other =>
      rcases mem_cons.mp member with rfl | member
      · exact mem_cons_self
      · exact mem_cons_of_mem _ (ih member)

theorem mem_of_fault?_eq_some {e : WalkFault} (met : fault? visits = some e) :
    fault e ∈ visits := by
  induction visits with
  | nil => simp [fault?] at met
  | cons visit visits ih =>
    cases visit with
    | file path => exact mem_cons_of_mem _ (ih met)
    | fault e' => rw [Option.some.inj met]; exact mem_cons_self

theorem mem_files_iff (sound : fault? visits = none) :
    path ∈ files visits ↔ file path ∈ visits := by
  refine ⟨file_mem_of_mem_files, fun member => ?_⟩
  induction visits with
  | nil => simp at member
  | cons visit visits ih =>
    cases visit with
    | fault e => simp [fault?] at sound
    | file other =>
      rcases mem_cons.mp member with same | member
      · rw [Visit.file.injEq] at same
        rw [same]
        exact mem_cons_self
      · exact mem_cons_of_mem _ (ih sound member)

theorem nodup_files (distinct : visits.Nodup) : (files visits).Nodup := by
  induction visits with
  | nil => exact nodup_nil
  | cons visit visits ih =>
    rw [nodup_cons] at distinct
    cases visit with
    | fault e => exact nodup_nil
    | file path =>
      exact nodup_cons.mpr ⟨fun again => distinct.1 (file_mem_of_mem_files again), ih distinct.2⟩

end Files.Visit

namespace Build

open Files Disk ComponentPack.Path

/-- The components below a directory, each of them once and in order. Everything below the
directory can be opened. -/
structure Discovered (disk : Disk) (directory : Path) (paths : List Path) : Prop where
  opens : disk.OpensPath directory
  accepted : ∀ names, disk.node? (disk.placeOf directory ++ names) = some .directory →
    refusal? (directory.joinAll names) = none
  mem_iff : ∀ path, path ∈ paths ↔ isComponent path = true ∧ ∃ names content,
    path = directory.joinAll names ∧
      disk.node? (disk.placeOf directory ++ names) = some (.file content)
  nodup : paths.Nodup
  ascending : paths.Pairwise (·.le · = true)

namespace Discovered

variable {disk : Disk} {directory : Path} {paths : List Path}

/-- Below one directory, paths with the same parts are the same. -/
theorem eq_of_parts (h : Discovered disk directory paths) (tree : disk.IsTree) (ha : a ∈ paths)
    (hb : b ∈ paths) (same : a.parts = b.parts) : a = b := by
  obtain ⟨-, names, content, rfl, there⟩ := (h.mem_iff a).mp ha
  obtain ⟨-, names', content', rfl, there'⟩ := (h.mem_iff b).mp hb
  have valid := tree.isName_of_mem (by rw [there]; simp)
  have valid' := tree.isName_of_mem (by rw [there']; simp)
  rw [parts_joinAll _ valid, parts_joinAll _ valid', append_cancel_left_eq] at same
  rw [map_injective_iff.mpr (fun _ _ => Part.name.inj) same]

/-- Different components lie at different places. -/
theorem eq_of_placeOf (h : Discovered disk directory paths) (tree : disk.IsTree) (ha : a ∈ paths)
    (hb : b ∈ paths) (same : disk.placeOf a = disk.placeOf b) : a = b := by
  obtain ⟨-, names, content, rfl, there⟩ := (h.mem_iff a).mp ha
  obtain ⟨-, names', content', rfl, there'⟩ := (h.mem_iff b).mp hb
  have valid := tree.isName_of_mem (by rw [there]; simp)
  have valid' := tree.isName_of_mem (by rw [there']; simp)
  rw [placeOf_joinAll disk _ valid, placeOf_joinAll disk _ valid',
    append_cancel_left_eq] at same
  rw [same]

theorem exists_file (h : Discovered disk directory paths) (tree : disk.IsTree)
    (listed : path ∈ paths) : ∃ content, disk.node? (disk.placeOf path) = some (.file content) := by
  obtain ⟨-, names, content, rfl, there⟩ := (h.mem_iff path).mp listed
  refine ⟨content, ?_⟩
  rw [placeOf_joinAll disk directory (tree.isName_of_mem (by rw [there]; simp)), there]

/-- There is one row of components. -/
theorem unique (h : Discovered disk directory paths) (tree : disk.IsTree) {others : List Path}
    (h' : Discovered disk directory others) : paths = others := by
  refine List.Perm.eq_of_pairwise (fun a b ha hb below above => ?_) h.ascending h'.ascending ?_
  · refine h.eq_of_parts tree ha ?_ (parts_eq_of_le below above)
    rwa [h.mem_iff, ← h'.mem_iff]
  · rw [perm_ext_iff_of_nodup h.nodup h'.nodup]
    intro path
    rw [h.mem_iff, h'.mem_iff]

end Discovered

section Search

variable {disk : Disk} {list : Location → List Text} {directory : Path} {paths : List Path}

theorem length_le_maxDepth (tree : disk.IsTree) {l : Location} {names : List Text}
    (present : disk.node? (l ++ names) ≠ none) : names.length ≤ disk.maxDepth := by
  have short := tree.length_le present
  rw [length_append] at short
  have square : disk.nodes.size ≤ (disk.nodes.size + 1) * (disk.nodes.size + 1) :=
    (Nat.le_succ _).trans (Nat.le_mul_self _)
  rw [maxDepth]
  omega

/-- A walk that meets no fault has seen everything. -/
theorem complete_of_fault?_eq_none (tree : disk.IsTree) (lists : disk.Lists list)
    {location : Location}
    (sound : Visit.fault? (disk.below list disk.maxDepth directory location) = none)
    {names : List Text} {node : Node} (filled : names ≠ [])
    (there : disk.node? (location ++ names) = some node) :
    (∀ content, node = .file content →
        .file (directory.joinAll names) ∈ disk.below list disk.maxDepth directory location) ∧
      (node = .directory → refusal? (directory.joinAll names) = none) := by
  have deep := length_le_maxDepth tree (by rw [there]; simp)
  refine (below_complete tree lists directory filled there deep).resolve_left ?_
  rintro ⟨e, met⟩
  exact Visit.fault?_eq_none_iff.mp sound e met

theorem discovered_of_fault?_eq_none (tree : disk.IsTree) (lists : disk.Lists list)
    (accepted : refusal? directory = none) (opens : disk.OpensPath directory)
    (sound : Visit.fault? (disk.below list disk.maxDepth directory (disk.placeOf directory)) = none) :
    Discovered disk directory (Path.sort ((Visit.files
      (disk.below list disk.maxDepth directory (disk.placeOf directory))).filter isComponent)) where
  opens := opens
  accepted names there := by
    by_cases here : names = []
    · rwa [here]
    · exact (complete_of_fault?_eq_none tree lists sound here there).2 rfl
  mem_iff path := by
    rw [(sort_perm _).mem_iff, mem_filter, Visit.mem_files_iff sound, and_comm,
      and_congr_right_iff]
    intro component
    constructor
    · intro met
      obtain ⟨names, -, -, ⟨content, there, same⟩ | ⟨_, _, _, same⟩⟩ :=
        exists_of_mem_below tree lists met
      · exact ⟨names, content, Visit.file.inj same, there⟩
      · simp at same
    · rintro ⟨names, content, rfl, there⟩
      have below : names ≠ [] := by
        rintro rfl
        rw [append_nil, opens.placeOf_directory] at there
        simp at there
      exact (complete_of_fault?_eq_none tree lists sound below there).1 content rfl
  nodup := (sort_perm _).nodup_iff.mpr
    ((Visit.nodup_files (nodup_below tree lists _ _ _)).filter _)
  ascending := pairwise_sort _

/-- A search gives the components below a directory, or fails if something there cannot be
opened. -/
theorem discoverBy_eq_ok_iff (tree : disk.IsTree) (free : disk.LinkFree)
    (lists : disk.Lists list) :
    (discoverBy disk list directory).1 = .ok paths ↔ Discovered disk directory paths := by
  constructor
  · intro found
    rw [discoverBy] at found
    split at found
    · simp at found
    · next visits walked =>
      obtain ⟨accepted, opens, rfl⟩ := (walkBelow?_eq_some_iff tree free lists).mp walked
      split at found
      · simp at found
      · next sound =>
        rw [← Except.ok.inj found]
        exact discovered_of_fault?_eq_none tree lists accepted opens sound
  · intro h
    have accepted : refusal? directory = none :=
      h.accepted [] (by rw [append_nil]; exact h.opens.placeOf_directory)
    have sound :
        Visit.fault? (disk.below list disk.maxDepth directory (disk.placeOf directory)) = none := by
      rw [Visit.fault?_eq_none_iff]
      intro e met
      obtain ⟨names, -, -, ⟨_, _, same⟩ | ⟨e', there, refused, -⟩⟩ :=
        exists_of_mem_below tree lists met
      · simp at same
      · simp [h.accepted names there] at refused
    rw [discoverBy, (walkBelow?_eq_some_iff tree free lists).mpr ⟨accepted, h.opens, rfl⟩]
    simp only [sound]
    exact congrArg _ ((discovered_of_fault?_eq_none tree lists accepted h.opens sound).unique tree h)

end Search

end Build

end ComponentPack
