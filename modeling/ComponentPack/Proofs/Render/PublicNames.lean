import Mathlib
import ComponentPack.Proofs.Render.Exposure

/-!
Public names of constants that are declared under different names. A hoisted name, a name with an
underscore and a name that begins like a public one share a public name if they go on alike, and no
other names do. Where an artifact declares no two of such names, its constants stay apart; otherwise
the list of exposed names is too short and constants are merged (`exposed_exact_iff`).
-/

set_option autoImplicit false

namespace ComponentPack.Render.Runtime

open Code List
open Code.Lexeme (isName)

/-- The names of constants that become the beginning of public names and the rest. -/
inductive Shares (runtime : Runtime) (rest : Text) : Text → Prop where
  | hoisted : Shares runtime rest (hoistedPrefix ++ rest)
  | marked (other : ¬ hoistedPrefix <+: '_' :: rest) : Shares runtime rest ('_' :: rest)
  | kept (plain : (runtime.constantPrefix ++ rest).head? ≠ some '_') :
      Shares runtime rest (runtime.constantPrefix ++ rest)

variable {runtime : Runtime} {artifact : Artifact} {name other rest : Text}

theorem publicName_eq_iff_shares :
    runtime.publicName name = runtime.constantPrefix ++ rest ↔ Shares runtime rest name := by
  constructor
  · intro shown
    rw [publicName, constantName?] at shown
    split at shown
    · next tail found =>
      obtain rfl := Text.eq_append_of_isPrefixOf? found
      obtain rfl : tail = rest := append_cancel_left shown
      exact .hoisted
    · next missing =>
      cases found : ['_'].isPrefixOf? name with
      | some tail =>
        rw [found] at shown
        obtain rfl : tail = rest := append_cancel_left shown
        obtain rfl := Text.eq_append_of_isPrefixOf? found
        exact .marked (Text.isPrefixOf?_eq_none_iff.mp missing)
      | none =>
        rw [found] at shown
        obtain rfl : name = runtime.constantPrefix ++ rest := shown
        refine .kept fun mark => ?_
        obtain ⟨tail, spelled⟩ := List.head?_eq_some_iff.mp mark
        exact Text.isPrefixOf?_eq_none_iff.mp found ⟨tail, spelled.symm⟩
  · rintro (_ | ⟨unhoisted⟩ | ⟨plain⟩)
    · rw [publicName, constantName?_hoisted]
      rfl
    · rw [publicName, constantName?, Text.isPrefixOf?_eq_none_iff.mpr unhoisted]
      rfl
    · exact publicName_eq_self plain

/-- Different names have one public name only if they share it so. -/
theorem publicName_eq_publicName_iff :
    runtime.publicName name = runtime.publicName other ↔
      name = other ∨ ∃ rest, Shares runtime rest name ∧ Shares runtime rest other := by
  constructor
  · intro same
    by_cases mark : name.head? = some '_'
    · obtain ⟨-, rest, -, shown⟩ := publicName_of_mark runtime mark
      exact .inr ⟨rest, publicName_eq_iff_shares.mp shown,
        publicName_eq_iff_shares.mp (same.symm.trans shown)⟩
    · by_cases second : other.head? = some '_'
      · obtain ⟨-, rest, -, shown⟩ := publicName_of_mark runtime second
        exact .inr ⟨rest, publicName_eq_iff_shares.mp (same.trans shown),
          publicName_eq_iff_shares.mp shown⟩
      · rw [publicName_eq_self mark, publicName_eq_self second] at same
        exact .inl same
  · rintro (rfl | ⟨rest, first, second⟩)
    · rfl
    · rw [publicName_eq_iff_shares.mpr first, publicName_eq_iff_shares.mpr second]

/-- The artifact declares two names that share a public name. -/
def Clashing (runtime : Runtime) (artifact : Artifact) : Prop :=
  ∃ name ∈ declaredNames artifact, ∃ other ∈ declaredNames artifact,
    name ≠ other ∧ ∃ rest, Shares runtime rest name ∧ Shares runtime rest other

theorem injOn_publicName_iff :
    Set.InjOn runtime.publicName {name | name ∈ declaredNames artifact} ↔
      ¬ Clashing runtime artifact := by
  constructor
  · rintro injective ⟨name, declared, other, known, differ, shared⟩
    exact differ (injective declared known (publicName_eq_publicName_iff.mpr (.inr shared)))
  · intro apart name declared other known same
    rcases publicName_eq_publicName_iff.mp same with equal | shared
    · exact equal
    · by_contra differ
      exact apart ⟨name, declared, other, known, differ, shared⟩

theorem nodup_appendNew {names : List Text} (nodup : names.Nodup) (name : Text) :
    (appendNew names name).Nodup := by
  rw [appendNew]
  split
  · exact nodup
  · next new =>
    rw [← concat_eq_append]
    exact nodup.concat (by simpa using new)

theorem nodup_foldl_appendNew {start : List Text} (nodup : start.Nodup) (names : List Text) :
    (names.foldl appendNew start).Nodup := by
  induction names generalizing start with
  | nil => exact nodup
  | cons name names ih => exact ih (nodup_appendNew nodup name)

theorem eraseDups_concat (names : List Text) (name : Text) :
    (names ++ [name]).eraseDups =
      if name ∈ names then names.eraseDups else names.eraseDups ++ [name] := by
  have single : [name].eraseDups = [name] := by
    rw [eraseDups_cons, filter_nil, eraseDups_nil]
  rw [eraseDups_append]
  split
  · next known => simp [List.removeAll, known]
  · next new => simp [List.removeAll, new, single]

theorem foldl_appendNew_eq_eraseDups (names : List Text) :
    names.foldl appendNew [] = names.eraseDups := by
  induction names using List.reverseRecOn with
  | nil => rfl
  | append_singleton names name ih =>
    rw [foldl_append, ih, eraseDups_concat, foldl_cons, foldl_nil, appendNew]
    simp only [contains_iff_mem, mem_eraseDups]

/-- A renaming that keeps names apart keeps their order. -/
theorem eraseDups_map_of_injOn {f : Text → Text} {names : List Text}
    (injective : Set.InjOn f {name | name ∈ names}) :
    (names.map f).eraseDups = names.eraseDups.map f := by
  induction names using List.reverseRecOn with
  | nil => rfl
  | append_singleton names name ih =>
    have known : f name ∈ names.map f ↔ name ∈ names := by
      constructor
      · intro member
        obtain ⟨other, inside, same⟩ := mem_map.mp member
        rwa [← injective (mem_append_left _ inside) (by simp) same]
      · exact mem_map_of_mem
    have front := ih (injective.mono fun name member => mem_append_left _ member)
    rw [map_append, map_singleton, eraseDups_concat, eraseDups_concat, front]
    simp only [known]
    split
    · rfl
    · rw [map_append, map_singleton]

theorem exposedNames_eq_eraseDups (runtime : Runtime) (artifact : Artifact) :
    runtime.exposedNames artifact =
      ((declaredNames artifact).map runtime.publicName).eraseDups :=
  foldl_appendNew_eq_eraseDups _

theorem nodup_exposedNames (runtime : Runtime) (artifact : Artifact) :
    (runtime.exposedNames artifact).Nodup :=
  nodup_foldl_appendNew nodup_nil _

theorem render_isName (isName : isName name = true) (substitute : Text → Option Text) :
    (Fragment.parse name).render substitute = (Lexeme.ofWord [] name).render substitute := by
  have read := @Lexeme.scanFrom_name name [] isName (by simp) []
  rw [append_nil, Lexeme.scanFrom] at read
  rw [Fragment.render_parse, Lexeme.scan, read, flatMap_singleton]

theorem length_of_mark (lone : name ≠ ['_']) (mark : name.head? = some '_') : 1 < name.length := by
  obtain ⟨others, rfl⟩ := List.head?_eq_some_iff.mp mark
  cases others with
  | nil => exact absurd rfl lone
  | cons c others => simp

section Renders

variable (imports : ImportSet) (declared : name ∈ declaredNames artifact)
  (word : isName name = true) (lone : name ≠ ['_'])

include declared word lone

theorem render_setup :
    (Fragment.parse name).render (runtime.substitute? artifact imports .setup) =
      runtime.publicName name := by
  rw [render_isName word]
  exact render_word fun mark => ⟨length_of_mark lone mark, .inl declared⟩

/-- In the render method a constant with an underscore is reached through the component. -/
theorem render_method :
    (Fragment.parse name).render (runtime.substitute? artifact imports .method) =
      if name.head? = some '_' then "this." ++ runtime.publicName name else name := by
  rw [render_isName word]
  split
  · next mark =>
    rw [ofWord_nil_of_point mark (length_of_mark lone mark), Lexeme.render, substitute?,
      constant?_eq_publicName (.inl declared)]
    rfl
  · next plain =>
    rw [ofWord_nil_of_plain fun point => plain point.1]
    rfl

end Renders

theorem this_append_ne (word : isName name = true) (text : Text) : "this." ++ text ≠ name := by
  rintro rfl
  have dot : '.' ∈ "this." ++ text := mem_append_left _ (by decide)
  exact absurd (Lexeme.isWordChar_of_mem_isName word '.' dot) (by decide)

/-- Where public names are kept apart, constants are. -/
theorem injOn_render (imports : ImportSet)
    (injective : Set.InjOn runtime.publicName {name | name ∈ declaredNames artifact}) (scope : Scope) :
    Set.InjOn (fun name => (Fragment.parse name).render (runtime.substitute? artifact imports scope))
      {name | name ∈ declaredNames artifact ∧ isName name = true ∧ name ≠ ['_']} := by
  rintro name ⟨declared, word, lone⟩ other ⟨known, second, apart⟩ same
  dsimp only at same
  cases scope with
  | setup =>
    rw [render_setup imports declared word lone, render_setup imports known second apart] at same
    exact injective declared known same
  | method =>
    rw [render_method imports declared word lone, render_method imports known second apart] at same
    split at same <;> split at same
    · exact injective declared known (append_cancel_left same)
    · exact absurd same (this_append_ne second _)
    · exact absurd same.symm (this_append_ne word _)
    · exact same

/-- The exposed names have no duplicates. They are as many as the declared names, and they are the
public names of these in the order of their first declarations, exactly if no two declared names
share a public name. No two constants with ASCII names become one name then, neither beside the
constants nor in the render method. -/
theorem exposed_exact_iff (runtime : Runtime) (artifact : Artifact) (imports : ImportSet) :
    (runtime.reconcile artifact imports).exposed.Nodup ∧
    ((runtime.reconcile artifact imports).exposed.length = (declaredNames artifact).toFinset.card ↔
      ¬ Clashing runtime artifact) ∧
    ((runtime.reconcile artifact imports).exposed =
      (declaredNames artifact).eraseDups.map runtime.publicName ↔ ¬ Clashing runtime artifact) ∧
    (¬ Clashing runtime artifact → ∀ scope,
      Set.InjOn (fun name => (Fragment.parse name).render (runtime.substitute? artifact imports scope))
        {name | name ∈ declaredNames artifact ∧ isName name = true ∧ name ≠ ['_']}) := by
  have exposed : (runtime.reconcile artifact imports).exposed =
      ((declaredNames artifact).map runtime.publicName).eraseDups :=
    exposedNames_eq_eraseDups runtime artifact
  have nodup : (runtime.reconcile artifact imports).exposed.Nodup :=
    nodup_exposedNames runtime artifact
  have members : (runtime.reconcile artifact imports).exposed.toFinset =
      (declaredNames artifact).toFinset.image runtime.publicName := by
    ext name
    simp [exposed]
  have declared : ((declaredNames artifact).toFinset : Set Text) =
      {name | name ∈ declaredNames artifact} := by
    ext name
    simp
  rw [← injOn_publicName_iff]
  refine ⟨nodup, ?_, ⟨?_, ?_⟩, injOn_render imports⟩
  · rw [← List.toFinset_card_of_nodup nodup, members, Finset.card_image_iff, declared]
  · intro same
    rw [same] at nodup
    have apart := List.inj_on_of_nodup_map nodup
    exact fun name first other second equal =>
      apart (List.mem_eraseDups.mpr first) (List.mem_eraseDups.mpr second) equal
  · intro injective
    rw [exposed, eraseDups_map_of_injOn injective]

/-- Render code with a hoisted constant, one of another kind that is declared twice, and one without
an underscore. -/
def separateCode : Text :=
  "const _hoisted_1 = 1\nlet _a = 2\nconst b = 3\nlet _a = 4\nexport function render() \x7b\x7d"

theorem exposed_exact_separate :
    ∃ artifact, Artifact.parse separateCode = .ok artifact ∧ ¬ Clashing {} artifact ∧
      (reconcile {} artifact (.ofNames [])).exposed = ["r_itm_1", "r_itm_a", "b"].map String.toList := by
  have listed : (Artifact.parse separateCode).toOption.map (fun artifact =>
      ((declaredNames artifact).toFinset.card, (reconcile {} artifact (.ofNames [])).exposed)) =
      some (3, ["r_itm_1", "r_itm_a", "b"].map String.toList) := by decide +kernel
  cases parsed : Artifact.parse separateCode with
  | error cause => exact absurd (parsed ▸ listed) (by simp [Except.toOption])
  | ok artifact =>
    rw [parsed] at listed
    obtain ⟨count, names⟩ := Prod.mk.inj (Option.some.inj listed)
    refine ⟨artifact, rfl, ?_, names⟩
    exact (exposed_exact_iff {} artifact (.ofNames [])).2.1.mp (by rw [names, count]; rfl)

/-- Render code with three constants that share a public name. -/
def sharedCode : Text :=
  "const _hoisted_a = 1\nconst _a = 2\nconst r_itm_a = 3
export function render() \x7b return [_hoisted_a, _a, r_itm_a] \x7d"

/-- One name is exposed for the three constants, it is declared three times, and the first two
constants cannot be told apart in the render method. -/
theorem not_exposed_exact_shared :
    ∃ artifact, Artifact.parse sharedCode = .ok artifact ∧
      declaredNames artifact = ["_hoisted_a", "_a", "r_itm_a"].map String.toList ∧
      reconcile {} artifact (.ofNames []) =
        ⟨["const r_itm_a = 1", "const r_itm_a = 2", "const r_itm_a = 3"].map String.toList,
          ["r_itm_a".toList],
          "render() \x7b return [this.r_itm_a, this.r_itm_a, r_itm_a] \x7d".toList⟩ := by
  have merged : (Artifact.parse sharedCode).toOption.map (fun artifact =>
      (declaredNames artifact, reconcile {} artifact (.ofNames []))) =
      some (["_hoisted_a", "_a", "r_itm_a"].map String.toList,
        ⟨["const r_itm_a = 1", "const r_itm_a = 2", "const r_itm_a = 3"].map String.toList,
          ["r_itm_a".toList],
          "render() \x7b return [this.r_itm_a, this.r_itm_a, r_itm_a] \x7d".toList⟩) := by
    decide +kernel
  cases parsed : Artifact.parse sharedCode with
  | error cause => exact absurd (parsed ▸ merged) (by simp [Except.toOption])
  | ok artifact =>
    rw [parsed] at merged
    obtain ⟨names, result⟩ := Prod.mk.inj (Option.some.inj merged)
    exact ⟨artifact, rfl, names, result⟩

end ComponentPack.Render.Runtime
