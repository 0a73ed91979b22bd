import ComponentPack.Build.Pass
import ComponentPack.Proofs.Build.Discovery
import ComponentPack.Proofs.Files.Locality

/-!
Where the outputs of a component lie. The outputs and temporary files of two components are
different files, whatever the names of the components, and none of them is a component.
-/

set_option autoImplicit false

namespace ComponentPack.Build

open Component Files Disk ComponentPack.Path List

variable {extension : Text} {disk : Disk} {directory : Path}

/-- The extensions of outputs. -/
def extensions : List Text := ["js", "css", "min.css"]

/-- The name of an output of a component file. -/
def outputName (name extension : Text) : Text := name ++ '.' :: extension

/-- A name with the extension of components. -/
def IsSourceName (name : Text) : Prop := ∃ stem, name = stem ++ ".vue"

theorem isSourceName_of_isComponent {base : Path} {name : Text} (h : IsName name)
    (component : isComponent (base.join ⟨name⟩) = true) : IsSourceName name := by
  have extended : (splitExtension name).2 = some "vue".toList := by
    simpa [isComponent, extension?, fileName?_join base h, Source.fileExtension] using component
  rw [splitExtension] at extended
  split at extended
  · simp at extended
  · simp at extended
  · next stem extension _ cut =>
    rw [Option.some.injEq] at extended
    rw [extended] at cut
    exact ⟨stem, Text.eq_of_cutLast? cut⟩

/-- The name of an output tells the component and the extension. -/
theorem outputName_inj {a b extension' : Text} (ha : IsSourceName a) (hb : IsSourceName b)
    (he : extension ∈ extensions) (he' : extension' ∈ extensions)
    (same : outputName a extension = outputName b extension') : a = b ∧ extension = extension' := by
  obtain ⟨stem, rfl⟩ := ha
  obtain ⟨stem', rfl⟩ := hb
  have backwards := congrArg List.reverse same
  simp only [extensions, mem_cons, not_mem_nil, or_false] at he he'
  rcases he with rfl | rfl | rfl <;> rcases he' with rfl | rfl | rfl <;>
    simp [outputName] at backwards ⊢ <;> exact backwards

theorem getLast?_outputName (he : extension ∈ extensions) (name : Text) :
    (outputName name extension).getLast? = some 's' := by
  simp only [extensions, mem_cons, not_mem_nil, or_false] at he
  rcases he with rfl | rfl | rfl <;> simp [outputName]

theorem getLast?_temporaryName (name : Text) : (temporaryName name).getLast? = some 'p' := by
  rw [temporaryName, List.getLast?_append]
  rfl

theorem temporaryName_inj {a b : Text} (same : temporaryName a = temporaryName b) : a = b := by
  simpa [temporaryName] using same

theorem isName_outputName {name : Text} (h : IsName name) (he : extension ∈ extensions) :
    IsName (outputName name extension) := by
  have slash : '/' ∉ extension := by
    simp only [extensions, mem_cons, not_mem_nil, or_false] at he
    rcases he with rfl | rfl | rfl <;> decide
  have last := getLast?_outputName he name
  refine ⟨by simp [outputName], by simp [outputName, h.slash, slash], ?_, ?_⟩
  · intro same
    simp [same] at last
  · intro same
    simp [same] at last

/-- The places of the outputs of a component and of their temporary siblings. -/
def footprint (source : Location) : Set Location :=
  {l | ∃ above name extension, source = above ++ [name] ∧ extension ∈ extensions ∧
    (l = above ++ [outputName name extension] ∨
      l = above ++ [temporaryName (outputName name extension)])}

/-- A place whose name has the extension of components. -/
def IsSource (l : Location) : Prop := ∃ above name, IsSourceName name ∧ l = above ++ [name]

theorem disjoint_footprint {a b : Location} (ha : IsSource a) (hb : IsSource b) (other : a ≠ b) :
    Disjoint (footprint a) (footprint b) := by
  obtain ⟨above, name, source, rfl⟩ := ha
  obtain ⟨above', name', source', rfl⟩ := hb
  rw [Set.disjoint_left]
  rintro l ⟨_, _, e, here, he, either⟩ ⟨_, _, e', here', he', either'⟩
  obtain ⟨rfl, rfl⟩ := append_singleton_inj.mp here
  obtain ⟨rfl, rfl⟩ := append_singleton_inj.mp here'
  -- Both outputs, both temporary, or one of each: the last letters tell the mixed cases apart.
  have last := getLast?_outputName he name
  have last' := getLast?_outputName he' name'
  rcases either with rfl | rfl <;> rcases either' with same | same <;>
    obtain ⟨rfl, names⟩ := append_singleton_inj.mp same
  · exact other (by rw [(outputName_inj source source' he he' names).1])
  · simp [names, getLast?_temporaryName] at last
  · simp [← names, getLast?_temporaryName] at last'
  · exact other (by rw [(outputName_inj source source' he he' (temporaryName_inj names)).1])

/-- A component is no output of any component. -/
theorem not_mem_footprint {l : Location} (h : IsSource l) (source : Location) :
    l ∉ footprint source := by
  obtain ⟨above, name, ⟨stem, rfl⟩, rfl⟩ := h
  rintro ⟨above', name', extension, -, he, same | same⟩
  · have last := getLast?_outputName he name'
    rw [← (append_singleton_inj.mp same).2] at last
    simp at last
  · have last := getLast?_temporaryName (outputName name' extension)
    rw [← (append_singleton_inj.mp same).2] at last
    simp at last

/-- A component file in a directory that is there. -/
def Placed (disk : Disk) (path : Path) : Prop :=
  ∃ base name, IsName name ∧ IsSourceName name ∧ disk.OpensPath base ∧ path = base.join ⟨name⟩

namespace Placed

variable {disk : Disk} {path : Path}

theorem isSource (h : Placed disk path) : IsSource (disk.placeOf path) := by
  obtain ⟨base, name, named, source, -, rfl⟩ := h
  exact ⟨disk.placeOf base, name, source, placeOf_join disk base named⟩

theorem transfer (h : Placed disk path) {area : Set Location} {other : Disk}
    (agree : Agree area disk other) : Placed other path := by
  obtain ⟨base, name, named, source, opens, rfl⟩ := h
  exact ⟨base, name, named, source, agree.opensPath opens, rfl⟩

/-- Each output lies beside its component. -/
theorem holds_outputPath (h : Placed disk path) (he : extension ∈ extensions) :
    ∃ base name, Source.outputPath path extension = base.join ⟨name⟩ ∧
      Holds (footprint (disk.placeOf path)) disk base name := by
  obtain ⟨base, name, named, source, opens, rfl⟩ := h
  have place := placeOf_join disk base named
  refine ⟨base, outputName name extension, addExtension_join base named extension,
    isName_outputName named he, opens, ?_, ?_⟩
  · exact ⟨_, _, extension, place, he, .inl rfl⟩
  · exact ⟨_, _, extension, place, he, .inr rfl⟩

end Placed

/-- A component file below a directory: the directory it is in, and its name. -/
theorem exists_of_isComponent (opens : disk.OpensPath directory) (tree : disk.IsTree)
    {names : List Text} {content : ByteArray}
    (component : isComponent (directory.joinAll names) = true)
    (there : disk.node? (disk.placeOf directory ++ names) = some (.file content)) :
    ∃ front name, names = front ++ [name] ∧ IsName name ∧ IsSourceName name ∧
      disk.OpensPath (directory.joinAll front) := by
  obtain ⟨front, name, rfl⟩ : ∃ front name, names = front ++ [name] := by
    rcases eq_nil_or_concat names with rfl | concat
    · rw [append_nil, opens.placeOf_directory] at there
      simp at there
    · simpa using concat
  have named := tree.isName_of_mem (by rw [there]; simp) name (by simp)
  rw [← append_assoc] at there
  rw [joinAll_concat] at component
  exact ⟨front, name, rfl, named, isSourceName_of_isComponent named component,
    opens.joinAll tree (tree.parent _ _ (by rw [there]; simp))⟩

theorem isSource_of_isComponent (opens : disk.OpensPath directory) (tree : disk.IsTree)
    {names : List Text} {content : ByteArray}
    (component : isComponent (directory.joinAll names) = true)
    (there : disk.node? (disk.placeOf directory ++ names) = some (.file content)) :
    IsSource (disk.placeOf directory ++ names) := by
  obtain ⟨front, name, rfl, -, source, -⟩ := exists_of_isComponent opens tree component there
  exact ⟨disk.placeOf directory ++ front, name, source, by simp⟩

theorem Discovered.placed {paths : List Path} (h : Discovered disk directory paths)
    (tree : disk.IsTree) {path : Path} (member : path ∈ paths) : Placed disk path := by
  obtain ⟨component, names, content, rfl, there⟩ := (h.mem_iff path).mp member
  obtain ⟨front, name, rfl, named, source, opens⟩ :=
    exists_of_isComponent h.opens tree component there
  exact ⟨_, name, named, source, opens, joinAll_concat directory front name⟩

end ComponentPack.Build
