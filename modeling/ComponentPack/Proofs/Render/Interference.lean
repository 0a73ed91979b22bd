import Mathlib
import ComponentPack.Proofs.Dictionary
import ComponentPack.Proofs.Render.Stability

/-!
What the artifacts of a pass can do to one another. They share the names of runtime functions that
any of them imports, but an artifact asks only for its own imports and for the names that follow the
underscores of its substitution points. Its own imports are always among the shared names, so
another artifact is noticed only where a substitution point is no constant and no alias of an
import.
-/

set_option autoImplicit false

namespace ComponentPack

open List

namespace Text

theorem length_flatMap_le {α : Type} {f g : α → Text} {items : List α}
    (longer : ∀ item ∈ items, (f item).length ≤ (g item).length) :
    (items.flatMap f).length ≤ (items.flatMap g).length := by
  induction items with
  | nil => exact Nat.le_refl _
  | cons item items ih =>
    obtain ⟨first, others⟩ := forall_mem_cons.mp longer
    rw [flatMap_cons, flatMap_cons, length_append, length_append]
    exact Nat.add_le_add first (ih others)

/-- Where no piece gets shorter, the whole can only stay the same if every piece does. -/
theorem eq_of_flatMap_eq {α : Type} {f g : α → Text} {items : List α}
    (longer : ∀ item ∈ items, (f item).length ≤ (g item).length)
    (equal : items.flatMap f = items.flatMap g) : ∀ item ∈ items, f item = g item := by
  induction items with
  | nil => simp
  | cons item items ih =>
    obtain ⟨first, others⟩ := forall_mem_cons.mp longer
    rw [flatMap_cons, flatMap_cons] at equal
    have rest := length_flatMap_le others
    have total := congrArg List.length equal
    rw [length_append, length_append] at total
    obtain ⟨same, later⟩ := append_inj equal (by omega)
    exact forall_mem_cons.mpr ⟨same, ih others later⟩

end Text

namespace Code.Fragment

theorem getD_eq_of_render_eq {fragment : Fragment} {substitute other : Text → Option Text}
    (longer : ∀ name, ((substitute name).getD name).length ≤ ((other name).getD name).length)
    (equal : fragment.render substitute = fragment.render other) :
    ∀ name ∈ fragment.identifiers, (substitute name).getD name = (other name).getD name := by
  have pieces := Text.eq_of_flatMap_eq (fun segment _ => ?_) equal
  · intro name member
    obtain ⟨segment, listed, point⟩ := mem_filterMap.mp member
    cases segment with
    | plain text => exact absurd point (by simp [Segment.identifier?])
    | identifier found =>
      cases point
      exact pieces _ listed
  · cases segment with
    | plain text => exact Nat.le_refl _
    | identifier name => exact longer name

end Code.Fragment

namespace Render

open Code

variable {name : Text} {runtime : Runtime}

/-- The substitution points of an artifact. -/
def Artifact.identifiers (artifact : Artifact) : List Text :=
  artifact.constants.flatMap (fun declaration => declaration.code.identifiers) ++
    artifact.render.identifiers

theorem ImportSet.contains_ofArtifacts {artifacts : List Artifact} :
    (ofArtifacts artifacts).contains name = true ↔
      ∃ artifact ∈ artifacts, name ∈ artifact.importedNames := by
  rw [ofArtifacts, ofNames, Dictionary.ofList, Dictionary.contains_insertAll]
  simp only [map_map, Function.comp_def, map_id', mem_flatMap, Dictionary.contains,
    Dictionary.get?_empty, Option.isSome_none, Bool.false_eq_true, or_false]

namespace Runtime

section Agreement

variable {artifact : Artifact} {imports other : ImportSet}

theorem helper?_congr
    (own : ∀ name ∈ artifact.importedNames, imports.contains name = other.contains name)
    (name : Text) : helper? artifact imports name = helper? artifact other name := by
  rw [helper?, helper?]
  refine congrArg (Option.map Import.imported) (List.find?_congr fun spec member => ?_)
  rw [own spec.imported (mem_map_of_mem (mem_reverse.mp member))]

theorem function?_congr
    (own : ∀ name ∈ artifact.importedNames, imports.contains name = other.contains name)
    (follows : ∀ rest, name = '_' :: rest →
      imports.contains rest = other.contains rest) :
    function? artifact imports name = function? artifact other name := by
  rw [function?, function?, helper?_congr own]
  cases helper? artifact other name with
  | some api => rfl
  | none =>
    cases found : ['_'].isPrefixOf? name with
    | none => rfl
    | some rest =>
      have split := List.isPrefixOf?_eq_some_iff_append_eq.mp found
      rw [Option.filter_some, Option.filter_some, follows rest split.symm]

theorem reconcile_eq_of_substitute? (same : ∀ scope, ∀ name ∈ artifact.identifiers,
      runtime.substitute? artifact imports scope name =
        runtime.substitute? artifact other scope name) :
    runtime.reconcile artifact imports = runtime.reconcile artifact other := by
  rw [reconcile, reconcile, Reconciled.mk.injEq]
  refine ⟨map_congr_left fun declaration listed => ?_, rfl, ?_⟩
  · refine Fragment.render_congr fun name member => same .setup name ?_
    exact mem_append_left _ (mem_flatMap.mpr ⟨declaration, listed, member⟩)
  · refine Fragment.render_congr fun name member => same .method name ?_
    exact mem_append_right _ member

/-- Reconciliation looks up the functions that the artifact imports and those whose names follow the
underscores of its substitution points. -/
theorem reconcile_congr (runtime : Runtime)
    (own : ∀ name ∈ artifact.importedNames, imports.contains name = other.contains name)
    (points : ∀ name, '_' :: name ∈ artifact.identifiers →
      imports.contains name = other.contains name) :
    runtime.reconcile artifact imports = runtime.reconcile artifact other := by
  refine reconcile_eq_of_substitute? fun scope name member => ?_
  rw [substitute?, substitute?, function?_congr own fun rest split => points rest (split ▸ member)]

end Agreement

/-- A name that means nothing to its own artifact: neither a constant nor an alias of an import. -/
structure Unclaimed (artifact : Artifact) (name : Text) : Prop where
  undeclared : name ∉ declaredNames artifact
  unhoisted : ¬ hoistedPrefix <+: name
  unaliased : ∀ spec ∈ artifact.imports, spec.localName ≠ name

section Growth

variable {artifact : Artifact} {imports other : ImportSet}

/-- A name that means nothing to its artifact stands for the function after its underscore. -/
theorem Unclaimed.substitute?_eq (runtime : Runtime) (free : Unclaimed artifact ('_' :: name))
    (imports : ImportSet) (scope : Scope) :
    runtime.substitute? artifact imports scope ('_' :: name) =
      if imports.contains name then some (runtime.api ++ '.' :: name) else none := by
  have constant : runtime.constant? artifact ('_' :: name) = none :=
    constant?_eq_none_iff.mpr ⟨free.undeclared, free.unhoisted⟩
  have helper : helper? artifact imports ('_' :: name) = none :=
    helper?_eq_none_iff.mpr fun spec member found => free.unaliased spec member found.1
  have stripped : ['_'].isPrefixOf? ('_' :: name) = some name :=
    List.isPrefixOf?_eq_some_iff_append_eq.mpr rfl
  rw [substitute?, constant, function?, helper, stripped, Option.filter_some]
  dsimp only
  split <;> rfl

/-- With its own imports among the shared names, an artifact finds what it knows itself. -/
theorem substitute?_of_claimed (own : ∀ name ∈ artifact.importedNames, imports.contains name = true)
    (kept : ∀ name, imports.contains name = true → other.contains name = true)
    (claimed : ¬ Unclaimed artifact name) (scope : Scope) :
    runtime.substitute? artifact imports scope name =
      runtime.substitute? artifact other scope name := by
  rw [substitute?, substitute?]
  cases constant : runtime.constant? artifact name with
  | some found => rfl
  | none =>
    obtain ⟨undeclared, unhoisted⟩ := constant?_eq_none_iff.mp constant
    have shared : ∀ name ∈ artifact.importedNames, imports.contains name = other.contains name :=
      fun name member => by rw [own name member, kept name (own name member)]
    have helper : helper? artifact imports name ≠ none := by
      intro missing
      refine claimed ⟨undeclared, unhoisted, fun spec member same => ?_⟩
      exact helper?_eq_none_iff.mp missing spec member
        ⟨same, own spec.imported (mem_map_of_mem member)⟩
    obtain ⟨api, found⟩ := Option.ne_none_iff_exists'.mp helper
    rw [function?, function?, ← helper?_congr shared, found]

/-- Every name is replaced alike, or it means nothing to its artifact and is replaced only now. -/
theorem substitute?_cases (own : ∀ name ∈ artifact.importedNames, imports.contains name = true)
    (kept : ∀ name, imports.contains name = true → other.contains name = true) (scope : Scope)
    (name : Text) :
    runtime.substitute? artifact imports scope name =
        runtime.substitute? artifact other scope name ∨
      ∃ rest, name = '_' :: rest ∧ Unclaimed artifact name ∧ imports.contains rest = false ∧
        other.contains rest = true ∧ runtime.substitute? artifact imports scope name = none ∧
        runtime.substitute? artifact other scope name = some (runtime.api ++ '.' :: rest) := by
  by_cases claimed : ¬ Unclaimed artifact name
  · exact .inl (substitute?_of_claimed own kept claimed scope)
  have free := not_not.mp claimed
  by_cases follows : ∀ rest, name = '_' :: rest → imports.contains rest = other.contains rest
  · have shared : ∀ name ∈ artifact.importedNames, imports.contains name = other.contains name :=
      fun name member => by rw [own name member, kept name (own name member)]
    rw [substitute?, substitute?, function?_congr shared follows]
    exact .inl rfl
  · simp only [not_forall] at follows
    obtain ⟨rest, rfl, differ⟩ := follows
    have missing : imports.contains rest = false := by
      by_contra found
      rw [Bool.not_eq_false] at found
      exact differ (by rw [found, kept rest found])
    have found : other.contains rest = true := by
      by_contra lost
      rw [Bool.not_eq_true] at lost
      exact differ (by rw [missing, lost])
    exact .inr ⟨rest, rfl, free, missing, found, by rw [free.substitute?_eq, missing]; rfl,
      by rw [free.substitute?_eq, found]; rfl⟩

/-- A function of the runtime is written otherwise than its alias, and not shorter. -/
theorem api_ne_alias (api name : Text) : api ++ '.' :: name ≠ '_' :: name := by
  intro same
  have length := congrArg List.length same
  simp only [length_append, length_cons] at length
  obtain rfl : api = [] := length_eq_zero_iff.mp (by omega)
  exact absurd (List.cons.inj same).1 (by decide)

/-- More shared names change an artifact if and only if one of them follows the underscore of a
substitution point that means nothing to the artifact. -/
theorem reconcile_ne_iff (runtime : Runtime)
    (own : ∀ name ∈ artifact.importedNames, imports.contains name = true)
    (kept : ∀ name, imports.contains name = true → other.contains name = true) :
    runtime.reconcile artifact imports ≠ runtime.reconcile artifact other ↔
      ∃ name, imports.contains name = false ∧ other.contains name = true ∧
        '_' :: name ∈ artifact.identifiers ∧ Unclaimed artifact ('_' :: name) := by
  have longer (scope : Scope) (name : Text) :
      ((runtime.substitute? artifact imports scope name).getD name).length ≤
        ((runtime.substitute? artifact other scope name).getD name).length := by
    rcases substitute?_cases own kept scope name with same | ⟨rest, rfl, -, -, -, before, after⟩
    · rw [same]
    · rw [before, after]
      simp
  constructor
  · intro differ
    by_contra untouched
    refine differ (reconcile_eq_of_substitute? fun scope name member => ?_)
    rcases substitute?_cases own kept scope name with same | ⟨rest, rfl, free, missing, found, -, -⟩
    · exact same
    · exact absurd ⟨rest, missing, found, member, free⟩ untouched
  · rintro ⟨name, missing, found, member, free⟩ equal
    have replaced (scope : Scope) :
        (runtime.substitute? artifact imports scope ('_' :: name)).getD ('_' :: name) ≠
          (runtime.substitute? artifact other scope ('_' :: name)).getD ('_' :: name) := by
      rw [free.substitute?_eq, free.substitute?_eq, missing, found]
      exact (api_ne_alias runtime.api name).symm
    rw [reconcile, reconcile, Reconciled.mk.injEq] at equal
    obtain ⟨constants, -, render⟩ := equal
    rcases mem_append.mp member with member | member
    · obtain ⟨declaration, listed, member⟩ := mem_flatMap.mp member
      have same := map_eq_map_iff.mp constants declaration listed
      exact replaced .setup (Fragment.getD_eq_of_render_eq (longer .setup) same _ member)
    · exact replaced .method (Fragment.getD_eq_of_render_eq (longer .method) render _ member)

end Growth

end Runtime

/-- An artifact is told by its own imports and substitution points. Import sets that agree on these
give the same result, the order of a pass does not matter, and another artifact of the pass is
noticed if and only if it alone imports a function whose name follows the underscore of a
substitution point that means nothing to the artifact itself. -/
theorem reconcile_noninterference (runtime : Runtime) (artifact : Artifact) :
    (∀ imports other : ImportSet,
      (∀ name, name ∈ artifact.importedNames ∨ '_' :: name ∈ artifact.identifiers →
        imports.contains name = other.contains name) →
      runtime.reconcile artifact imports = runtime.reconcile artifact other) ∧
    (∀ pass reordered : List Artifact, pass.Perm reordered →
      runtime.reconcile artifact (.ofArtifacts pass) =
        runtime.reconcile artifact (.ofArtifacts reordered)) ∧
    ∀ (front back : List Artifact) (newcomer : Artifact), artifact ∈ front ++ back →
      (runtime.reconcile artifact (.ofArtifacts (front ++ newcomer :: back)) ≠
          runtime.reconcile artifact (.ofArtifacts (front ++ back)) ↔
        ∃ name ∈ newcomer.importedNames, (∀ other ∈ front ++ back, name ∉ other.importedNames) ∧
          '_' :: name ∈ artifact.identifiers ∧ Runtime.Unclaimed artifact ('_' :: name)) := by
  refine ⟨fun imports other agree => ?_, fun pass reordered perm => ?_,
    fun front back newcomer member => ?_⟩
  · exact Runtime.reconcile_congr runtime (fun name own => agree name (.inl own))
      fun name point => agree name (.inr point)
  · have same (name : Text) : (ImportSet.ofArtifacts pass).contains name =
        (ImportSet.ofArtifacts reordered).contains name := by
      rw [Bool.eq_iff_iff, ImportSet.contains_ofArtifacts, ImportSet.contains_ofArtifacts]
      simp only [perm.mem_iff]
    exact Runtime.reconcile_congr runtime (fun name _ => same name) fun name _ => same name
  · have own : ∀ name ∈ artifact.importedNames,
        (ImportSet.ofArtifacts (front ++ back)).contains name = true := fun name listed =>
      ImportSet.contains_ofArtifacts.mpr ⟨artifact, member, listed⟩
    have kept : ∀ name, (ImportSet.ofArtifacts (front ++ back)).contains name = true →
        (ImportSet.ofArtifacts (front ++ newcomer :: back)).contains name = true := by
      intro name known
      obtain ⟨other, listed, imported⟩ := ImportSet.contains_ofArtifacts.mp known
      have still : other ∈ front ++ newcomer :: back := by
        rw [List.mem_append] at listed ⊢
        exact listed.imp_right (List.mem_cons_of_mem newcomer)
      exact ImportSet.contains_ofArtifacts.mpr ⟨other, still, imported⟩
    rw [ne_comm, Runtime.reconcile_ne_iff runtime own kept]
    refine exists_congr fun name => ?_
    rw [← Bool.not_eq_true, ImportSet.contains_ofArtifacts, ImportSet.contains_ofArtifacts]
    simp only [List.mem_append, List.mem_cons]
    constructor
    · rintro ⟨fresh, ⟨other, listed, imported⟩, point⟩
      rcases listed with listed | rfl | listed
      · exact absurd ⟨other, .inl listed, imported⟩ fresh
      · exact ⟨imported, fun other listed imported => fresh ⟨other, listed, imported⟩, point⟩
      · exact absurd ⟨other, .inr listed, imported⟩ fresh
    · rintro ⟨imported, fresh, point⟩
      refine ⟨?_, ⟨newcomer, .inr (.inl rfl), imported⟩, point⟩
      rintro ⟨other, listed, imported⟩
      exact fresh other listed imported

/-- Render code with a name of its own that could be an alias. -/
def localCode : Text := "export function render(_h) \x7b return _h \x7d"

/-- Render code that imports a function. -/
def importingCode : Text :=
  "import \x7b h as _h \x7d from \"vue\"\nexport function render() \x7b\x7d"

theorem reconcile_noninterference_localCode :
    ∃ artifact newcomer, Artifact.parse localCode = .ok artifact ∧
      Artifact.parse importingCode = .ok newcomer ∧
      ({} : Runtime).reconcile artifact (.ofNames [['x']]) =
        ({} : Runtime).reconcile artifact .empty ∧
      ({} : Runtime).reconcile artifact (.ofArtifacts [artifact, newcomer]) ≠
        ({} : Runtime).reconcile artifact (.ofArtifacts [artifact]) := by
  have parts : (Artifact.parse localCode).toOption.map (fun artifact =>
      (artifact.imports, Runtime.declaredNames artifact, artifact.identifiers)) =
        some ([], [], [['_', 'h'], ['_', 'h']]) := by decide +kernel
  have names : (Artifact.parse importingCode).toOption.map Artifact.importedNames =
      some [['h']] := by decide +kernel
  cases parsed : Artifact.parse localCode with
  | error e =>
    rw [parsed] at parts
    exact absurd parts (by simp [Except.toOption])
  | ok artifact =>
    cases other : Artifact.parse importingCode with
    | error e =>
      rw [other] at names
      exact absurd names (by simp [Except.toOption])
    | ok newcomer =>
      rw [parsed] at parts
      rw [other] at names
      simp only [Except.toOption, Option.map_some, Option.some.injEq, Prod.mk.injEq] at parts names
      obtain ⟨imports, declared, points⟩ := parts
      have own : artifact.importedNames = [] := by rw [Artifact.importedNames, imports]; rfl
      obtain ⟨agreement, -, noticed⟩ := reconcile_noninterference {} artifact
      refine ⟨artifact, newcomer, rfl, rfl, agreement _ _ fun name asked => ?_,
        (noticed [artifact] [] newcomer (by simp)).mpr ⟨['h'], ?_, ?_, ?_, ?_, ?_, ?_⟩⟩
      · obtain rfl : name = ['h'] := by simpa [own, points] using asked
        decide +kernel
      · simp [names]
      · simp [own]
      · simp [points]
      · simp [declared]
      · decide
      · simp [imports]

end Render

end ComponentPack
