import Mathlib
import ComponentPack.Proofs.Render.Names
import ComponentPack.Proofs.Render.Stability

/-!
Which exposed names are declared. A declaration and the list of exposed names are renamed in two
ways: the list by the name that the declaration shows, the declaration at its substitution points.
They meet unless the name is a lone underscore, or has an underscore where its ASCII part is not
known as a constant, or an ASCII part of it after other characters is replaced.
-/

set_option autoImplicit false

namespace ComponentPack.Render

open Code List Lexeme Fragment
open Code.Lexeme (IsPoint isName isWordChar isWordStart)

variable {name word : Text} {runtime : Runtime} {artifact : Artifact} {imports : ImportSet}

namespace Runtime

theorem mem_appendNew {names : List Text} {other : Text} :
    other ∈ appendNew names name ↔ other ∈ names ∨ other = name := by
  rw [appendNew]
  split
  · next known =>
    have member : name ∈ names := by simpa using known
    constructor
    · exact .inl
    · rintro (old | rfl)
      · exact old
      · exact member
  · simp

theorem mem_foldl_appendNew {names start : List Text} :
    name ∈ names.foldl appendNew start ↔ name ∈ start ∨ name ∈ names := by
  induction names generalizing start with
  | nil => simp
  | cons other names ih =>
    rw [foldl_cons, ih, mem_appendNew, mem_cons]
    tauto

/-- The exposed names are the public names of the declared ones. -/
theorem mem_exposedNames :
    name ∈ runtime.exposedNames artifact ↔
      ∃ declared ∈ declaredNames artifact, runtime.publicName declared = name := by
  rw [exposedNames, mem_foldl_appendNew]
  simp

/-- The part of a name that is a word for the scanner. -/
def wordPart (name : Text) : Text := name.takeWhile isWordChar

/-- The part of a name from the first character that is in no word. -/
def otherPart (name : Text) : Text := name.dropWhile isWordChar

theorem wordPart_append_otherPart (name : Text) : wordPart name ++ otherPart name = name :=
  takeWhile_append_dropWhile

theorem isName_wordPart (declarable : IsDeclarable name) : isName (wordPart name) = true := by
  obtain ⟨first, others, rfl, begins, -⟩ := declarable
  have inside := isWordChar_of_isWordStart begins
  rw [wordPart, takeWhile_cons_of_pos inside, isName, Bool.and_eq_true_iff]
  exact ⟨begins, all_eq_true.mpr fun c member => mem_takeWhile_imp member⟩

theorem head?_wordPart (declarable : IsDeclarable name) : (wordPart name).head? = name.head? := by
  obtain ⟨first, others, rfl, begins, -⟩ := declarable
  rw [wordPart, takeWhile_cons_of_pos (isWordChar_of_isWordStart begins)]
  rfl

theorem isNameChar_otherPart (declarable : IsDeclarable name) :
    ∀ c ∈ otherPart name, isNameChar c = true := fun c member =>
  declarable.isNameChar c (dropWhile_subset _ member)

/-- A phrase of word characters begins a name if it begins its first part. -/
theorem isPrefixOf?_wordPart (phrase name : Text) (chars : ∀ c ∈ phrase, isWordChar c = true) :
    phrase.isPrefixOf? name = (phrase.isPrefixOf? (wordPart name)).map (· ++ otherPart name) := by
  cases found : phrase.isPrefixOf? (wordPart name) with
  | some rest =>
    have same : phrase ++ (rest ++ otherPart name) = name := by
      rw [← append_assoc, List.isPrefixOf?_eq_some_iff_append_eq.mp found,
        wordPart_append_otherPart]
    rw [Option.map_some, List.isPrefixOf?_eq_some_iff_append_eq]
    exact same
  | none =>
    rw [Option.map_none, Text.isPrefixOf?_eq_none_iff]
    rintro ⟨rest, rfl⟩
    refine Text.isPrefixOf?_eq_none_iff.mp found ⟨rest.takeWhile isWordChar, ?_⟩
    rw [wordPart, takeWhile_append_of_pos chars]

theorem constantName?_wordPart (runtime : Runtime) (name : Text) :
    runtime.constantName? name =
      (runtime.constantName? (wordPart name)).map (· ++ otherPart name) := by
  have hoisted := isPrefixOf?_wordPart hoistedPrefix name (all_eq_true.mp (by decide))
  have underscore := isPrefixOf?_wordPart ['_'] name (all_eq_true.mp (by decide))
  rw [constantName?, constantName?, hoisted, underscore]
  cases hoistedPrefix.isPrefixOf? (wordPart name) with
  | some rest => simp
  | none => simp [Option.map_map, Function.comp_def]

theorem publicName_wordPart (runtime : Runtime) (name : Text) :
    runtime.publicName name = runtime.publicName (wordPart name) ++ otherPart name := by
  rw [publicName, publicName, constantName?_wordPart]
  cases runtime.constantName? (wordPart name) with
  | some constant => rfl
  | none => exact (wordPart_append_otherPart name).symm

theorem render_wordPart (declarable : IsDeclarable name) (substitute : Text → Option Text) :
    (Fragment.parse name).render substitute =
      (Lexeme.ofWord [] (wordPart name)).render substitute ++
        (Fragment.parse (otherPart name)).render substitute := by
  have isName := isName_wordPart declarable
  have read : Lexeme.scanFrom [] (wordPart name ++ otherPart name) =
      Lexeme.ofWord [] (wordPart name) :: Lexeme.scanFrom ((wordPart name).reverse ++ [])
        (otherPart name) :=
    scanFrom_name isName (Text.stops_dropWhile name) []
  have nothing : ∀ c ∈ ([] : Text).head?, isNameChar c = false := by simp
  have alone := scanFrom_nameText (isNameChar_otherPart declarable) nothing
    (dotRun_name isName []) (Eq.refl (Lexeme.dotRun []))
  rw [wordPart_append_otherPart] at read
  simp only [append_nil, Lexeme.scanFrom] at alone read
  rw [render_parse, render_parse, Lexeme.scan, Lexeme.scan, read, alone,
    flatMap_cons]

section Substitutes

variable {runtime : Runtime} (named : runtime.WellNamed)
include named

theorem head_constant (rest : Text) :
    ∃ c others, runtime.constantPrefix ++ rest = c :: others ∧ isWordStart c = true ∧ c ≠ '_' := by
  obtain ⟨first, others, same, letter, -, -⟩ := named.constants
  refine ⟨first, others ++ rest, by rw [same]; rfl, by simp [isWordStart, letter], ?_⟩
  rintro rfl
  exact absurd letter (by decide)

theorem head_api (rest : Text) :
    ∃ c others, runtime.api ++ rest = c :: others ∧ isWordStart c = true ∧ c ≠ '_' := by
  obtain ⟨first, words, same, isName, plain, -⟩ := named.api
  obtain ⟨c, others, rfl, begins, -⟩ := exists_cons_of_isName isName
  refine ⟨c, others ++ words.flatMap ('.' :: ·) ++ rest, by rw [same]; rfl, begins, ?_⟩
  rintro rfl
  exact plain rfl

/-- A substitute beside the constants begins a name, and not with an underscore. -/
theorem head_substitute {text : Text} (point : IsPoint name)
    (found : runtime.substitute? artifact imports .setup name = some text) :
    ∃ c others, text = c :: others ∧ isWordStart c = true ∧ c ≠ '_' := by
  rw [substitute?] at found
  split at found
  · next constant declared =>
    obtain ⟨start, rest, -, rfl⟩ := constantName?_eq_some (constant?_eq_some point declared)
    cases found
    exact head_constant named rest
  · obtain ⟨function, -, rfl⟩ := Option.map_eq_some_iff.mp found
    exact head_api named _

/-- If the name that can be read where a part of a name was rendered is that part, nothing in it has
been replaced. -/
theorem substitute?_eq_none_of_takeWhile {before part rest : Text}
    (chars : ∀ c ∈ part, isNameChar c = true) (same : ((Lexeme.scanFrom before part).flatMap
      (Lexeme.render (runtime.substitute? artifact imports .setup)) ++ rest).takeWhile isNameChar =
        part) :
    ∀ name ∈ (Lexeme.scanFrom before part).filterMap Lexeme.identifier?,
      runtime.substitute? artifact imports .setup name = none := by
  induction before, part using scan_induction with
  | nil before => simp [Lexeme.scanFrom]
  | step before lexeme tail reads ih =>
    rw [reads.scanFrom_eq, flatMap_cons] at same
    rw [reads.scanFrom_eq]
    rcases render_cases (runtime.substitute? artifact imports .setup) lexeme with
      ⟨kept, free⟩ | ⟨name, text, rfl, replaced⟩
    · rw [kept, append_assoc, takeWhile_append_of_pos
        fun c member => chars c (mem_append_left _ member), append_cancel_left_eq] at same
      have later := ih (fun c member => chars c (mem_append_right _ member)) same
      intro name member
      cases point : lexeme.identifier? with
      | none =>
        rw [filterMap_cons_none point] at member
        exact later name member
      | some found =>
        rw [filterMap_cons_some point] at member
        rcases mem_cons.mp member with rfl | member
        · exact free name point
        · exact later name member
    · obtain ⟨point, -⟩ := reads.isPoint
      obtain ⟨c, others, rfl, begins, plain⟩ := head_substitute named point replaced
      obtain ⟨tail, rfl, -, -⟩ := point
      have rendered : Lexeme.render (runtime.substitute? artifact imports .setup)
          (.identifier ('_' :: tail)) = c :: others := by simp [Lexeme.render, replaced]
      rw [rendered, cons_append, cons_append,
        takeWhile_cons_of_pos (isNameChar_of_isNameStart begins)] at same
      exact absurd (List.cons.inj same).1 plain

end Substitutes

/-- The substitution does to a declared name what its public name says: a leading underscore belongs
to a word of two characters or more that is a constant itself, and nothing after that word is
replaced. -/
def Renamed (artifact : Artifact) (imports : ImportSet) (name : Text) : Prop :=
  (name.head? = some '_' → 1 < (wordPart name).length ∧
    (wordPart name ∈ declaredNames artifact ∨ hoistedPrefix <+: wordPart name)) ∧
  ∀ part ∈ (Fragment.parse (otherPart name)).identifiers, ¬ Reserved artifact imports part

theorem constant?_eq_publicName (known : word ∈ declaredNames artifact ∨ hoistedPrefix <+: word) :
    runtime.constant? artifact word = some (runtime.publicName word) := by
  by_cases declared : word ∈ declaredNames artifact
  · simp [constant?, declared]
  · have hoisted := List.isPrefixOf_iff_prefix.mpr (known.resolve_left declared)
    obtain ⟨rest, rfl⟩ := known.resolve_left declared
    simp [constant?, declared, hoisted, publicName, constantName?_hoisted]

theorem ofWord_nil_of_point (mark : word.head? = some '_') (long : 1 < word.length) :
    Lexeme.ofWord [] word = .identifier word := by
  rw [Lexeme.ofWord, if_pos ⟨long, mark, rfl⟩]

theorem ofWord_nil_of_plain (plain : ¬ (word.head? = some '_' ∧ 1 < word.length)) :
    Lexeme.ofWord [] word = .word word := by
  rw [Lexeme.ofWord, if_neg]
  rintro ⟨long, mark, -⟩
  exact plain ⟨mark, long⟩

theorem publicName_eq_self (plain : name.head? ≠ some '_') : runtime.publicName name = name := by
  have hoisted : hoistedPrefix.isPrefixOf? name = none := by
    rw [Text.isPrefixOf?_eq_none_iff]
    rintro ⟨rest, rfl⟩
    exact plain rfl
  have underscore : ['_'].isPrefixOf? name = none := by
    rw [Text.isPrefixOf?_eq_none_iff]
    rintro ⟨rest, rfl⟩
    exact plain rfl
  rw [publicName, constantName?, hoisted, underscore]
  rfl

/-- The word of a declared name is replaced by its public name where it should be. -/
theorem render_word (known : word.head? = some '_' → 1 < word.length ∧
      (word ∈ declaredNames artifact ∨ hoistedPrefix <+: word)) :
    (Lexeme.ofWord [] word).render (runtime.substitute? artifact imports .setup) =
      runtime.publicName word := by
  by_cases mark : word.head? = some '_'
  · obtain ⟨long, constant⟩ := known mark
    have found : runtime.substitute? artifact imports .setup word =
        some (runtime.publicName word) := by
      rw [substitute?, constant?_eq_publicName constant]
    rw [ofWord_nil_of_point mark long, Lexeme.render, found]
    rfl
  · rw [ofWord_nil_of_plain fun point => mark point.1, publicName_eq_self mark]
    rfl

/-- Elsewhere it is left alone or becomes a function of the runtime. -/
theorem render_word_cases (mark : word.head? = some '_')
    (unknown : ¬ (1 < word.length ∧ (word ∈ declaredNames artifact ∨ hoistedPrefix <+: word))) :
    (Lexeme.ofWord [] word).render (runtime.substitute? artifact imports .setup) = word ∨
      word ∉ declaredNames artifact ∧ ∃ function,
        (Lexeme.ofWord [] word).render (runtime.substitute? artifact imports .setup) =
          runtime.api ++ '.' :: function := by
  by_cases long : 1 < word.length
  · have neither := not_or.mp fun known => unknown ⟨long, known⟩
    rw [ofWord_nil_of_point mark long, Lexeme.render, substitute?,
      constant?_eq_none_iff.mpr neither]
    cases function? artifact imports word with
    | none => exact .inl rfl
    | some function => exact .inr ⟨neither.1, function, rfl⟩
  · rw [ofWord_nil_of_plain fun point => long point.2]
    exact .inl rfl

theorem publicName_of_mark (runtime : Runtime) (mark : word.head? = some '_') :
    ∃ start rest, word = start ++ rest ∧
      runtime.publicName word = runtime.constantPrefix ++ rest := by
  obtain ⟨constant, found⟩ :=
    Option.isSome_iff_exists.mp (runtime.isSome_constantName?_of_mark mark)
  obtain ⟨start, rest, same, rfl⟩ := constantName?_eq_some found
  exact ⟨start, rest, same, by rw [publicName, found]; rfl⟩

section Declarations

variable {runtime : Runtime} (named : runtime.WellNamed)
include named

theorem isNameChar_publicName (chars : ∀ c ∈ word, isWordChar c = true) :
    ∀ c ∈ runtime.publicName word, isNameChar c = true := by
  intro c member
  refine isNameChar_of_isWordChar ?_
  by_cases mark : word.head? = some '_'
  · obtain ⟨start, rest, rfl, same⟩ := publicName_of_mark runtime mark
    rw [same] at member
    obtain ⟨isName, -, -⟩ := constant_isName named fun d part =>
      chars d (mem_append_right _ part)
    exact isWordChar_of_mem_isName isName c member
  · rw [publicName_eq_self mark] at member
    exact chars c member

theorem takeWhile_api (text : Text) :
    ∀ c ∈ (runtime.api ++ '.' :: text).takeWhile isNameChar, isWordChar c = true := by
  obtain ⟨first, words, same, isName, -, -⟩ := named.api
  have chars := isWordChar_of_mem_isName isName
  have dot : ∀ c ∈ (words.flatMap ('.' :: ·) ++ '.' :: text).head?, isNameChar c = false := by
    intro c head
    cases words <;> cases head <;> decide
  rw [same, append_assoc, Text.takeWhile_append_eq
    (fun c member => isNameChar_of_isWordChar (chars c member)) dot]
  exact chars

/-- A name with a leading underscore can only be read as its public name if its first word is a
constant: left alone it keeps the underscore, and a function of the runtime is shorter. -/
theorem constant_of_takeWhile {text : Text} (declared : name ∈ declaredNames artifact)
    (mark : (wordPart name).head? = some '_') (same : ((Lexeme.ofWord [] (wordPart name)).render
      (runtime.substitute? artifact imports .setup) ++ text).takeWhile isNameChar =
        runtime.publicName (wordPart name) ++ otherPart name) :
    1 < (wordPart name).length ∧
      (wordPart name ∈ declaredNames artifact ∨ hoistedPrefix <+: wordPart name) := by
  by_contra unknown
  rcases render_word_cases mark unknown with left | ⟨undeclared, function, api⟩
  · obtain ⟨start, rest, -, renamed⟩ := publicName_of_mark runtime mark
    obtain ⟨c, others, letter, -, plain⟩ := head_constant named rest
    obtain ⟨tail, word⟩ := List.head?_eq_some_iff.mp mark
    rw [left, renamed, letter, word, cons_append,
      takeWhile_cons_of_pos (by decide)] at same
    exact plain (List.cons.inj same).1.symm
  · -- The namespace ends at its dot and is ASCII, so the name has no other part: it is its own
    -- first word, which was supposed not to be declared.
    rw [api, append_assoc, cons_append] at same
    have short := takeWhile_api named (function ++ text)
    rw [same] at short
    have nothing : otherPart name = [] := by
      rw [← List.head?_eq_none_iff, Option.eq_none_iff_forall_not_mem]
      intro c first
      have outside := Text.stops_dropWhile name c first
      rw [short c (mem_append_right _ (mem_of_mem_head? first))] at outside
      exact Bool.noConfusion outside
    rw [← wordPart_append_otherPart name, nothing, append_nil] at declared
    exact undeclared declared

/-- The name that can be read where a declared name was rendered is its public name if and only if
the substitution does what the public name says. -/
theorem takeWhile_render_iff {rest : Text} (declarable : IsDeclarable name)
    (declared : name ∈ declaredNames artifact) (stops : ∀ c ∈ rest.head?, isNameChar c = false) :
    ((Fragment.parse name).render (runtime.substitute? artifact imports .setup) ++ rest).takeWhile
        isNameChar = runtime.publicName name ↔ Renamed artifact imports name := by
  have chars : ∀ c ∈ wordPart name, isWordChar c = true := fun c member =>
    mem_takeWhile_imp member
  have others := isNameChar_otherPart declarable
  rw [render_wordPart declarable, publicName_wordPart, append_assoc, Renamed,
    ← head?_wordPart declarable]
  constructor
  · intro same
    have known := fun mark => constant_of_takeWhile named declared mark same
    refine ⟨known, ?_⟩
    rw [render_word known, takeWhile_append_of_pos (isNameChar_publicName named chars),
      append_cancel_left_eq, render_parse] at same
    intro part member
    rw [identifiers_parse] at member
    exact substitute?_eq_none_iff.mp
      (substitute?_eq_none_of_takeWhile named others same part member)
  · rintro ⟨known, untouched⟩
    have kept : (Fragment.parse (otherPart name)).render
        (runtime.substitute? artifact imports .setup) = otherPart name := by
      rw [render_eq_source fun part member =>
        substitute?_eq_none_iff.mpr (untouched part member), source_parse]
    have all : ∀ c ∈ runtime.publicName (wordPart name) ++ otherPart name, isNameChar c = true :=
      forall_mem_append.mpr ⟨isNameChar_publicName named chars, others⟩
    rw [render_word known, kept, ← append_assoc, Text.takeWhile_append_eq all stops]

theorem head_render (artifact : Artifact) (imports : ImportSet) (declarable : IsDeclarable name) :
    ∃ c others, (Fragment.parse name).render (runtime.substitute? artifact imports .setup) =
      c :: others ∧ isNameStart c = true := by
  have isName := isName_wordPart declarable
  rw [render_wordPart declarable]
  rcases render_cases (runtime.substitute? artifact imports .setup)
    (Lexeme.ofWord [] (wordPart name)) with ⟨kept, -⟩ | ⟨point, text, form, replaced⟩
  · obtain ⟨c, others, same, begins, -⟩ := exists_cons_of_isName isName
    rw [kept, text_ofWord, same]
    exact ⟨c, _, rfl, begins⟩
  · obtain ⟨c, others, same, begins, chars⟩ := exists_cons_of_isName isName
    have reads : Lexeme.Reads [] (.identifier point) [] :=
      .word begins chars (by simp) (by rw [← same, form])
    obtain ⟨d, rest, rfl, start, -⟩ := head_substitute named reads.isPoint.1 replaced
    rw [form, Lexeme.render, replaced]
    exact ⟨d, _, rfl, start⟩

/-- A statement that declares a name, rendered beside the constants, declares its public name if and
only if the substitution does what the public name says. -/
theorem declaredName?_render_iff {statement : Text}
    (read : Declaration.declaredName? statement = some name)
    (declared : name ∈ declaredNames artifact) :
    Declaration.declaredName?
        ((Fragment.parse statement).render (runtime.substitute? artifact imports .setup)) =
      some (runtime.publicName name) ↔ Renamed artifact imports name := by
  obtain ⟨word, blanks, rest, declares⟩ := declares_of_declaredName? read
  obtain ⟨tail, rendered, stops⟩ :=
    declares.render_eq (runtime.substitute? artifact imports .setup)
  obtain ⟨c, others, head, begins⟩ := head_render named artifact imports declares.declarable
  have first : IsDeclarable (((Fragment.parse name).render
      (runtime.substitute? artifact imports .setup) ++ tail).takeWhile isNameChar) := by
    rw [head, cons_append, takeWhile_cons_of_pos (isNameChar_of_isNameStart begins)]
    exact ⟨c, _, rfl, begins, fun d member => mem_takeWhile_imp member⟩
  have again : Declares ((Fragment.parse statement).render
      (runtime.substitute? artifact imports .setup)) _ word blanks _ :=
    ⟨by rw [rendered, takeWhile_append_dropWhile], declares.keyword, declares.gap,
      declares.blank, first, Text.stops_dropWhile _⟩
  rw [again.declaredName?_eq, Option.some.injEq]
  exact takeWhile_render_iff named declares.declarable declared stops

end Declarations

/-- An ASCII name is declared under its public name, unless it is a lone underscore. -/
theorem renamed_of_word (imports : ImportSet) (declared : name ∈ declaredNames artifact)
    (chars : ∀ c ∈ name, isWordChar c = true) (other : name ≠ ['_']) :
    Renamed artifact imports name := by
  have whole : wordPart name = name := takeWhile_eq_self_iff.mpr chars
  have nothing : otherPart name = [] := dropWhile_eq_nil_iff.mpr chars
  rw [Renamed, whole, nothing]
  refine ⟨fun mark => ⟨?_, .inl declared⟩, by simp [Fragment.parse, Lexeme.scan, Lexeme.scanFrom,
    Segment.ofLexemes, Fragment.identifiers]⟩
  obtain ⟨others, rfl⟩ := List.head?_eq_some_iff.mp mark
  cases others with
  | nil => exact absurd rfl other
  | cons c others => simp

end Runtime

/-- Every declared name is exposed under its public name. Its declaration, reconciled, declares that
public name if and only if the substitution does what the public name says; it does so for every
ASCII name but a lone underscore. -/
theorem declares_exposed_iff {code : Text} {artifact : Artifact}
    (parsed : Artifact.parse code = .ok artifact) (imports : ImportSet) {runtime : Runtime}
    (named : runtime.WellNamed) {declaration : Declaration}
    (member : declaration ∈ artifact.constants) {name : Text}
    (declared : declaration.name = some name) :
    runtime.publicName name ∈ (runtime.reconcile artifact imports).exposed ∧
    (Declaration.declaredName?
        (declaration.code.render (runtime.substitute? artifact imports .setup)) =
      some (runtime.publicName name) ↔ Runtime.Renamed artifact imports name) ∧
    ((∀ c ∈ name, isWordChar c = true) → name ≠ ['_'] → Runtime.Renamed artifact imports name) := by
  obtain ⟨statements, -⟩ := Artifact.fragments_of_parse parsed
  obtain ⟨statement, rfl⟩ := statements declaration member
  have known : name ∈ Runtime.declaredNames artifact :=
    List.mem_filterMap.mpr ⟨_, member, declared⟩
  exact ⟨Runtime.mem_exposedNames.mpr ⟨name, known, rfl⟩,
    Runtime.declaredName?_render_iff named declared known, Runtime.renamed_of_word imports known⟩

theorem declares_exposed_hoistedCode :
    ∃ artifact, Artifact.parse hoistedCode = .ok artifact ∧
      ∃ declaration ∈ artifact.constants,
        "r_itm_1".toList ∈ (({} : Runtime).reconcile artifact .empty).exposed ∧
        Declaration.declaredName?
          (declaration.code.render (({} : Runtime).substitute? artifact .empty .setup)) =
            some "r_itm_1".toList := by
  have names : (Artifact.parse hoistedCode).toOption.map (fun artifact =>
      artifact.constants.map Declaration.name) = some [some "_hoisted_1".toList] := by
    decide +kernel
  cases parsed : Artifact.parse hoistedCode with
  | error e =>
    rw [parsed] at names
    exact absurd names (by simp [Except.toOption])
  | ok artifact =>
    rw [parsed] at names
    obtain ⟨declaration, constants, declared⟩ :=
      List.map_eq_singleton_iff.mp (Option.some.inj names)
    have member : declaration ∈ artifact.constants := by simp [constants]
    obtain ⟨exposed, iff_renamed, ascii⟩ :=
      declares_exposed_iff parsed .empty Runtime.wellNamed_default member declared
    exact ⟨artifact, rfl, declaration, member, exposed,
      iff_renamed.mpr (ascii (List.all_eq_true.mp (by decide)) (by decide))⟩

/-- A lone underscore is exposed under a public name, but its declaration keeps it. -/
theorem not_declares_exposed_underscore :
    (Artifact.parse "const _ = 1\nexport function render() \x7b\x7d".toList).toOption.map
        (fun artifact =>
          ((({} : Runtime).reconcile artifact .empty).exposed,
            (({} : Runtime).reconcile artifact .empty).constants.map Declaration.declaredName?)) =
      some (["r_itm_".toList], [some ['_']]) := by
  decide +kernel

end ComponentPack.Render
