import Mathlib
import ComponentPack.Render.Reconcile
import ComponentPack.Proofs.Code.Rewriting

/-!
Reconciled code is settled: read again, it has just the substitution points that no name of the
runtime replaces, so substituting once more changes nothing.
-/

set_option autoImplicit false

namespace ComponentPack.Render

open Code List Option Lexeme
open Code.Lexeme (IsPoint Replacement isName isWordChar regexKeywords)

variable {runtime : Runtime} {name rest : Text} {artifact : Artifact} {imports : ImportSet}

namespace Runtime

/-- The namespace is a row of names with dots, the first one no substitution point; the public names
of constants begin with a letter and cannot be keywords. -/
structure WellNamed (runtime : Runtime) : Prop where
  api : ∃ (first : Text) (words : List Text), runtime.api = first ++ words.flatMap ('.' :: ·) ∧
    isName first = true ∧ first.head? ≠ some '_' ∧ ∀ word ∈ words, isName word = true
  constants : ∃ (first : Char) (others : Text), runtime.constantPrefix = first :: others ∧
    first.isAlpha = true ∧ (∀ c ∈ others, isWordChar c = true) ∧ ('_' ∈ others ∨ '$' ∈ others)

theorem wellNamed_default : WellNamed {} where
  api := ⟨"Vue", [], rfl, by decide, by decide, by simp⟩
  constants := ⟨'r', "_itm_", rfl, by decide, all_eq_true.mp (by decide), by decide⟩

/-- A public name is the beginning of public names and what follows the old beginning. -/
theorem constantName?_eq_some {constant : Text} (found : runtime.constantName? name = some constant)
    :
    ∃ start rest, name = start ++ rest ∧ constant = runtime.constantPrefix ++ rest := by
  rw [constantName?] at found
  split at found
  · next rest hoisted =>
    cases found
    exact ⟨hoistedPrefix, rest, Text.eq_append_of_isPrefixOf? hoisted, rfl⟩
  · obtain ⟨rest, stripped, rfl⟩ := map_eq_some_iff.mp found
    exact ⟨['_'], rest, Text.eq_append_of_isPrefixOf? stripped, rfl⟩

theorem constantName?_hoisted (runtime : Runtime) (rest : Text) :
    runtime.constantName? (hoistedPrefix ++ rest) = some (runtime.constantPrefix ++ rest) := by
  have stripped : hoistedPrefix.isPrefixOf? (hoistedPrefix ++ rest) = some rest :=
    List.isPrefixOf?_eq_some_iff_append_eq.mpr rfl
  rw [constantName?, stripped]

theorem isSome_constantName?_of_mark (runtime : Runtime) (mark : name.head? = some '_') :
    (runtime.constantName? name).isSome = true := by
  obtain ⟨others, rfl⟩ := List.head?_eq_some_iff.mp mark
  rw [constantName?]
  split
  · rfl
  · simp [List.isPrefixOf?]

theorem constant?_eq_some {constant : Text} (point : IsPoint name)
    (found : runtime.constant? artifact name = some constant) :
    runtime.constantName? name = some constant := by
  rw [constant?] at found
  split at found
  · have mark : name.head? = some '_' := by
      obtain ⟨others, rfl, -, -⟩ := point
      rfl
    obtain ⟨shown, known⟩ :=
      isSome_iff_exists.mp (runtime.isSome_constantName?_of_mark mark)
    rw [publicName, known] at found
    rw [known]
    exact found
  · split at found
    · exact found
    · exact absurd found (by simp)

theorem dollar_not_mem_keyword : ∀ keyword ∈ regexKeywords, '$' ∉ keyword := by
  decide

section Replacements

variable {runtime : Runtime} (named : runtime.WellNamed)
include named

theorem constant_isName (chars : ∀ c ∈ rest, isWordChar c = true) :
    isName (runtime.constantPrefix ++ rest) = true ∧
      (runtime.constantPrefix ++ rest).head? ≠ some '_' ∧
      ∀ before, Lexeme.opensRegex ((runtime.constantPrefix ++ rest).reverse ++ before) = false := by
  obtain ⟨first, others, same, letter, inside, mark⟩ := named.constants
  have start : Lexeme.isWordStart first = true := by simp [Lexeme.isWordStart, letter]
  have tail : ∀ c ∈ others ++ rest, isWordChar c = true := fun c member =>
    (mem_append.mp member).elim (inside c) (chars c)
  have all : ∀ c ∈ first :: (others ++ rest), isWordChar c = true :=
    forall_mem_cons.mpr ⟨isWordChar_of_isWordStart start, tail⟩
  rw [same, cons_append]
  refine ⟨?_, ?_, fun before => ?_⟩
  · rw [isName, Bool.and_eq_true_iff]
    exact ⟨start, all_eq_true.mpr tail⟩
  · intro underscore
    cases underscore
    exact absurd letter (by decide)
  · rcases mark with mark | mark
    · exact opensRegex_of_mark all underscore_not_mem_keyword
        (mem_cons_of_mem _ (mem_append_left _ mark)) before
    · exact opensRegex_of_mark all dollar_not_mem_keyword
        (mem_cons_of_mem _ (mem_append_left _ mark)) before

theorem replacement_constant (chars : ∀ c ∈ rest, isWordChar c = true) :
    Replacement (runtime.constantPrefix ++ rest) := by
  obtain ⟨name, plain, operand⟩ := constant_isName named chars
  exact ⟨⟨_, [], by simp, name, plain, by simp⟩, operand⟩

theorem replacement_this (chars : ∀ c ∈ rest, isWordChar c = true) :
    Replacement ("this." ++ (runtime.constantPrefix ++ rest)) := by
  obtain ⟨name, plain, operand⟩ := constant_isName named chars
  refine ⟨⟨"this", [runtime.constantPrefix ++ rest], by simp, by decide, by decide, ?_⟩, ?_⟩
  · simpa using name
  · intro before
    rw [reverse_append, append_assoc]
    exact operand _

theorem replacement_api {function : Text} (name : isName function = true)
    (other : function ∉ regexKeywords) : Replacement (runtime.api ++ '.' :: function) := by
  obtain ⟨first, words, same, start, plain, names⟩ := named.api
  refine ⟨⟨first, words ++ [function], by simp [same], start, plain, ?_⟩, fun before => ?_⟩
  · intro word member
    rcases mem_append.mp member with member | member
    · exact names word member
    · rw [mem_singleton.mp member]
      exact name
  · have nonempty : function ≠ [] := by
      rintro rfl
      exact Bool.noConfusion name
    have ends : EndsWithWord (before.reverse ++ runtime.api ++ ['.'] ++ function) function :=
      ⟨before.reverse ++ runtime.api ++ ['.'], [], by simp, nonempty, by simp,
        isWordChar_of_mem_isName name, by simp; decide⟩
    have read := opensRegex_of_word ends
    have operand : regexKeywords.contains function = false := by simpa using other
    rw [operand] at read
    simpa using read

end Replacements

theorem contains_of_function? {function : Text}
    (found : function? artifact imports name = some function) :
    imports.contains function = true := by
  rw [function?] at found
  split at found
  · next imported helper =>
    cases found
    obtain ⟨spec, known, rfl⟩ := map_eq_some_iff.mp helper
    have matched := List.find?_some known
    simp only [decide_eq_true_eq] at matched
    exact matched.2
  · exact (filter_eq_some_iff.mp found).2

/-- Names in the import set can stand after a dot and end an operand. -/
def KnownNames (imports : ImportSet) : Prop :=
  ∀ name, imports.contains name = true → isName name = true ∧ name ∉ regexKeywords

theorem replacement_substitute (named : runtime.WellNamed) (known : KnownNames imports)
    (artifact : Artifact) (scope : Scope) {text : Text} (point : IsPoint name)
    (found : runtime.substitute? artifact imports scope name = some text) : Replacement text := by
  rw [substitute?] at found
  split at found
  · next constant declared =>
    obtain ⟨start, rest, rfl, rfl⟩ := constantName?_eq_some (constant?_eq_some point declared)
    have chars : ∀ c ∈ rest, isWordChar c = true := fun c member =>
      isWordChar_of_isPoint point c (mem_append_right _ member)
    cases scope with
    | setup =>
      cases found
      exact replacement_constant named chars
    | method =>
      cases found
      exact replacement_this named chars
  · obtain ⟨function, imported, rfl⟩ := map_eq_some_iff.mp found
    obtain ⟨isName, other⟩ := known function (contains_of_function? imported)
    exact replacement_api named isName other

/-- The names that mean a constant or a function of the runtime. -/
def Reserved (artifact : Artifact) (imports : ImportSet) (name : Text) : Prop :=
  name ∈ declaredNames artifact ∨ hoistedPrefix <+: name ∨
    (∃ spec ∈ artifact.imports, spec.localName = name ∧ imports.contains spec.imported = true) ∨
    ∃ function, name = '_' :: function ∧ imports.contains function = true

theorem constant?_eq_none_iff :
    runtime.constant? artifact name = none ↔
      name ∉ declaredNames artifact ∧ ¬ hoistedPrefix <+: name := by
  rw [constant?]
  by_cases declared : name ∈ declaredNames artifact
  · simp [declared]
  · by_cases hoisted : hoistedPrefix <+: name
    · have isHoisted := List.isPrefixOf_iff_prefix.mpr hoisted
      obtain ⟨rest, rfl⟩ := hoisted
      simp [declared, isHoisted, constantName?_hoisted]
    · have other : ¬ hoistedPrefix.isPrefixOf name = true :=
        fun isHoisted => hoisted (List.isPrefixOf_iff_prefix.mp isHoisted)
      simp [declared, hoisted, other]

theorem helper?_eq_none_iff :
    helper? artifact imports name = none ↔
      ∀ spec ∈ artifact.imports,
        ¬ (spec.localName = name ∧ imports.contains spec.imported = true) := by
  rw [helper?, map_eq_none_iff, List.find?_eq_none]
  simp only [mem_reverse, decide_eq_true_eq]

theorem function?_eq_none_iff :
    function? artifact imports name = none ↔
      (∀ spec ∈ artifact.imports,
        ¬ (spec.localName = name ∧ imports.contains spec.imported = true)) ∧
      ∀ function, name = '_' :: function → ¬ imports.contains function = true := by
  rw [function?, ← helper?_eq_none_iff]
  cases helper : helper? artifact imports name with
  | some imported => simp
  | none =>
    simp only [true_and]
    rw [filter_eq_none_iff]
    refine forall_congr' fun function => ?_
    rw [List.isPrefixOf?_eq_some_iff_append_eq]
    exact ⟨fun free same => free same.symm, fun free same => free same.symm⟩

/-- Exactly the reserved names have a substitute. -/
theorem substitute?_eq_none_iff {scope : Scope} :
    runtime.substitute? artifact imports scope name = none ↔ ¬ Reserved artifact imports name := by
  have parts : runtime.substitute? artifact imports scope name = none ↔
      runtime.constant? artifact name = none ∧ function? artifact imports name = none := by
    rw [substitute?]
    cases runtime.constant? artifact name with
    | some constant => cases scope <;> simp
    | none => simp
  rw [parts, constant?_eq_none_iff, function?_eq_none_iff, Reserved]
  simp only [not_or, not_exists, not_and]
  tauto

end Runtime

theorem Artifact.fragments_of_parse {code : Text} (parsed : Artifact.parse code = .ok artifact) :
    (∀ declaration ∈ artifact.constants, ∃ statement,
      declaration = Declaration.ofStatement statement) ∧
    ∃ method, artifact.render = Fragment.parse method := by
  have statements (block : Text) : ∀ declaration ∈ Declaration.parseBlock block,
      ∃ statement, declaration = Declaration.ofStatement statement := by
    intro declaration member
    obtain ⟨statement, -, rfl⟩ := mem_map.mp member
    exact ⟨statement, rfl⟩
  rw [Artifact.parse] at parsed
  split at parsed
  · exact absurd parsed (by simp)
  · split at parsed
    · cases parsed
      exact ⟨statements _, _, rfl⟩
    · split at parsed
      · exact absurd parsed (by simp)
      · cases parsed
        exact ⟨statements _, _, rfl⟩

/-- What a fragment has become under a substitution that has done its work: of its substitution
points those without a substitute are left, and substituting once more changes nothing. -/
structure Settled (substitute : Text → Option Text) (fragment : Fragment) (text : Text) : Prop where
  identifiers : (Fragment.parse text).identifiers =
    fragment.identifiers.filter fun name => (substitute name).isNone
  stable : (Fragment.parse text).render substitute = text

theorem settled_render (named : runtime.WellNamed) (known : Runtime.KnownNames imports)
    (artifact : Artifact) (scope : Scope) (code : Text) :
    Settled (runtime.substitute? artifact imports scope) (Fragment.parse code)
      ((Fragment.parse code).render (runtime.substitute? artifact imports scope)) := by
  have proper (name : Text) (point : IsPoint name) (text : Text)
      (found : runtime.substitute? artifact imports scope name = some text) : Replacement text :=
    Runtime.replacement_substitute named known artifact scope point found
  exact ⟨Fragment.identifiers_parse_render proper code, Fragment.render_parse_render proper code⟩

theorem Settled.not_reserved {scope : Scope} {fragment : Fragment} {text : Text}
    (settled : Settled (runtime.substitute? artifact imports scope) fragment text) :
    ∀ name ∈ (Fragment.parse text).identifiers, ¬ Runtime.Reserved artifact imports name := by
  intro name member
  rw [settled.identifiers] at member
  have free := (mem_filter.mp member).2
  exact Runtime.substitute?_eq_none_iff.mp (isNone_iff_eq_none.mp free)

/-- Reconciliation is complete and stable: each constant and the render method, read again, have
just the substitution points that no substitute replaced, none of them reserved, and substituting
once more changes nothing. -/
theorem settled_reconcile {code : Text} {artifact : Artifact}
    (parsed : Artifact.parse code = .ok artifact) {imports : ImportSet}
    (known : Runtime.KnownNames imports) {runtime : Runtime} (named : runtime.WellNamed) :
    List.Forall₂ (fun declaration text =>
        Settled (runtime.substitute? artifact imports .setup) declaration.code text)
      artifact.constants (runtime.reconcile artifact imports).constants ∧
    Settled (runtime.substitute? artifact imports .method) artifact.render
      (runtime.reconcile artifact imports).render ∧
    ∀ text ∈ (runtime.reconcile artifact imports).render ::
        (runtime.reconcile artifact imports).constants,
      ∀ name ∈ (Fragment.parse text).identifiers, ¬ Runtime.Reserved artifact imports name := by
  obtain ⟨statements, method, body⟩ := Artifact.fragments_of_parse parsed
  have constants : ∀ declaration ∈ artifact.constants,
      Settled (runtime.substitute? artifact imports .setup) declaration.code
        (declaration.code.render (runtime.substitute? artifact imports .setup)) := by
    intro declaration member
    obtain ⟨statement, rfl⟩ := statements declaration member
    exact settled_render named known artifact .setup statement
  have render : Settled (runtime.substitute? artifact imports .method) artifact.render
      (runtime.reconcile artifact imports).render := by
    rw [Runtime.reconcile, body]
    exact settled_render named known artifact .method method
  refine ⟨List.forall₂_map_right_iff.mpr (List.forall₂_same.mpr constants), render, ?_⟩
  intro text member
  rcases List.mem_cons.mp member with rfl | member
  · exact render.not_reserved
  · obtain ⟨declaration, known, rfl⟩ := List.mem_map.mp member
    exact (constants declaration known).not_reserved

/-- Render code with an import, a hoisted constant and a name of its own. -/
def hoistedCode : Text :=
  "import \x7b h as _h \x7d from \"vue\"
const _hoisted_1 = 1
export function render() \x7b return _h(_hoisted_1, _x) / 2 \x7d"

theorem knownNames_singleton : Runtime.KnownNames (.ofNames [['h']]) := by
  intro name found
  have entries : (ImportSet.ofNames [['h']]).entries = [(['h'], ())] := by decide
  rw [Dictionary.contains, Dictionary.get?, entries] at found
  have same : ['h'] = name := by
    by_contra other
    simp [Dictionary.lookup, other] at found
  rw [← same]
  decide

theorem identifiers_reconcile_hoistedCode :
    ∃ artifact, Artifact.parse hoistedCode = .ok artifact ∧
      (Fragment.parse (({} : Runtime).reconcile artifact (.ofNames [['h']])).render).identifiers =
        [['_', 'x']] := by
  have left : (Artifact.parse hoistedCode).toOption.map (fun artifact =>
      artifact.render.identifiers.filter fun name =>
        (({} : Runtime).substitute? artifact (.ofNames [['h']]) .method name).isNone) =
      some [['_', 'x']] := by decide +kernel
  cases parsed : Artifact.parse hoistedCode with
  | error e =>
    rw [parsed] at left
    exact absurd left (by simp [Except.toOption])
  | ok artifact =>
    rw [parsed] at left
    have settled := (settled_reconcile parsed knownNames_singleton Runtime.wellNamed_default).2.1
    exact ⟨artifact, rfl, settled.identifiers.trans (Option.some.inj left)⟩

end ComponentPack.Render
