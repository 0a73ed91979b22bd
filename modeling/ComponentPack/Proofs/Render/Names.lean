import Mathlib
import ComponentPack.Render.Artifact
import ComponentPack.Proofs.Code.Rewriting

/-!
Names of declarations. A statement is read twice: once for the name that it declares, in which every
word character of Unicode may stand, and once for its lexemes, of which the words are ASCII. Here
the first reading is described as a shape of the statement, and the second one is carried out on
names.
-/

set_option autoImplicit false

namespace ComponentPack.Render

open Code List Lexeme Option
open Code.Lexeme (isWordChar isWordStart toNat_of_isWordChar)

variable {c : Char} {name word text rest statement blanks before : Text}

/-- The characters of words are the ASCII characters of names. -/
theorem isWordChar_iff : isWordChar c = true ↔ isNameChar c = true ∧ c.toNat < 0x80 := by
  constructor
  · intro inside
    have ascii : c.toNat < 0x80 := by
      have range := toNat_of_isWordChar inside
      omega
    refine ⟨?_, ascii⟩
    rw [isNameChar, Text.isWordChar, if_pos ascii]
    exact inside
  · rintro ⟨name, ascii⟩
    rw [isNameChar, Text.isWordChar, if_pos ascii] at name
    exact name

theorem isNameChar_of_isWordChar (inside : isWordChar c = true) : isNameChar c = true :=
  (isWordChar_iff.mp inside).1

theorem isWordChar_eq_false (outside : isNameChar c = false) : isWordChar c = false := by
  by_contra inside
  rw [isNameChar_of_isWordChar (Bool.not_eq_false _ ▸ inside)] at outside
  exact Bool.noConfusion outside

theorem isBlank_eq_false_of_isWordChar (inside : isWordChar c = true) : Text.isBlank c = false := by
  have range := toNat_of_isWordChar inside
  by_contra blank
  simp only [Bool.not_eq_false, Text.isBlank, Bool.or_eq_true, Bool.and_eq_true, decide_eq_true_eq,
    beq_iff_eq] at blank
  omega

theorem isNameChar_of_isNameStart (begins : isNameStart c = true) : isNameChar c = true :=
  isNameChar_of_isWordChar (isWordChar_of_isWordStart begins)

/-- No character of names opens a literal, a comment or a regular expression. -/
theorem inert_of_isNameChar (name : isNameChar c = true) : isQuote c = false ∧ c ≠ '/' := by
  refine ⟨?_, ?_⟩
  · by_contra quote
    rw [Bool.not_eq_false] at quote
    have outside := of_isQuote (!isNameChar ·) (by decide) quote
    simp [name] at outside
  · rintro rfl
    exact absurd name (by decide)

theorem inert_of_isBlank {c : Char} (blank : Text.isBlank c = true) :
    isQuote c = false ∧ c ≠ '/' ∧ isWordChar c = false := by
  refine ⟨?_, ?_, ?_⟩
  · by_contra quote
    rw [Bool.not_eq_false] at quote
    have visible := of_isQuote (!Text.isBlank ·) (by decide) quote
    simp [blank] at visible
  · rintro rfl
    exact absurd blank (by decide)
  · by_contra inside
    rw [isBlank_eq_false_of_isWordChar (Bool.not_eq_false _ ▸ inside)] at blank
    exact Bool.noConfusion blank

/-- The names that a declaration can give. -/
def IsDeclarable (name : Text) : Prop :=
  ∃ first others, name = first :: others ∧ isNameStart first = true ∧
    ∀ c ∈ others, isNameChar c = true

theorem IsDeclarable.isNameChar (declarable : IsDeclarable name) :
    ∀ c ∈ name, isNameChar c = true := by
  obtain ⟨first, others, rfl, begins, chars⟩ := declarable
  exact forall_mem_cons.mpr ⟨isNameChar_of_isNameStart begins, chars⟩

/-- A statement that declares a name: a keyword, blanks, the name, and no more characters of it. -/
structure Declares (statement name word blanks rest : Text) : Prop where
  shape : statement = word ++ (blanks ++ (name ++ rest))
  keyword : word ∈ Declaration.keywords
  gap : blanks ≠ []
  blank : ∀ c ∈ blanks, Text.isBlank c = true
  declarable : IsDeclarable name
  stops : ∀ c ∈ rest.head?, isNameChar c = false

theorem isName_of_mem_keywords (keyword : word ∈ Declaration.keywords) :
    Lexeme.isName word = true ∧ word.head? ≠ some '_' := by
  revert keyword
  simp only [Declaration.keywords, map_cons, map_nil, mem_cons, not_mem_nil,
    or_false]
  rintro (rfl | rfl | rfl | rfl) <;> decide

theorem name?_eq_some_iff :
    name? text = some (name, rest) ↔ text = name ++ rest ∧ IsDeclarable name ∧
      ∀ c ∈ rest.head?, isNameChar c = false := by
  constructor
  · intro read
    cases text with
    | nil => exact absurd read (by simp [name?])
    | cons c tail =>
      rw [name?] at read
      split at read
      · next begins =>
        cases read
        refine ⟨?_, ⟨c, _, rfl, begins, fun d member => mem_takeWhile_imp member⟩,
          Text.stops_dropWhile tail⟩
        rw [cons_append, takeWhile_append_dropWhile]
      · exact absurd read (by simp)
  · rintro ⟨rfl, ⟨first, others, rfl, begins, chars⟩, stops⟩
    rw [cons_append, name?, if_pos begins, Text.takeWhile_append_eq chars stops,
      Text.dropWhile_append_eq chars stops]

theorem afterBlanks?_eq_some_iff :
    afterBlanks? text = some rest ↔ ∃ blanks, text = blanks ++ rest ∧ blanks ≠ [] ∧
      (∀ c ∈ blanks, Text.isBlank c = true) ∧ ∀ c ∈ rest.head?, Text.isBlank c = false := by
  constructor
  · intro read
    cases text with
    | nil => exact absurd read (by simp [afterBlanks?])
    | cons c tail =>
      rw [afterBlanks?] at read
      split at read
      · next blank =>
        cases read
        refine ⟨c :: tail.takeWhile Text.isBlank, ?_, by simp, forall_mem_cons.mpr
          ⟨blank, fun d member => mem_takeWhile_imp member⟩, Text.stops_dropWhile tail⟩
        rw [cons_append, Text.trimStart, takeWhile_append_dropWhile]
      · exact absurd read (by simp)
  · rintro ⟨blanks, rfl, gap, blank, stops⟩
    obtain ⟨c, others, rfl⟩ := exists_cons_of_ne_nil gap
    obtain ⟨head, tail⟩ := forall_mem_cons.mp blank
    rw [cons_append, afterBlanks?, if_pos head, Text.trimStart,
      Text.dropWhile_append_eq tail stops]

theorem IsDeclarable.isBlank_head? (declarable : IsDeclarable name) (rest : Text) :
    ∀ c ∈ (name ++ rest).head?, Text.isBlank c = false := by
  obtain ⟨first, others, rfl, begins, -⟩ := declarable
  intro c member
  cases member
  exact isBlank_eq_false_of_isWordChar (isWordChar_of_isWordStart begins)

/-- A statement declares at most one name: the one after the first blanks. -/
theorem Declares.name_eq (declares : Declares statement name word blanks rest) :
    name = ((statement.dropWhile fun c => !Text.isBlank c).dropWhile Text.isBlank).takeWhile
      isNameChar := by
  obtain ⟨rfl, keyword, gap, blank, declarable, stops⟩ := declares
  have letters : ∀ c ∈ word, (!Text.isBlank c) = true := fun c member => by
    rw [isBlank_eq_false_of_isWordChar (isWordChar_of_mem_isName
      (isName_of_mem_keywords keyword).1 c member)]
    rfl
  have ends : ∀ c ∈ (blanks ++ (name ++ rest)).head?, (!Text.isBlank c) = false := by
    obtain ⟨d, others, rfl⟩ := exists_cons_of_ne_nil gap
    intro c first
    cases first
    rw [blank d mem_cons_self]
    rfl
  rw [Text.dropWhile_append_eq letters ends,
    Text.dropWhile_append_eq blank (declarable.isBlank_head? rest),
    Text.takeWhile_append_eq declarable.isNameChar stops]

theorem declares_of_declaredName? (read : Declaration.declaredName? statement = some name) :
    ∃ word blanks rest, Declares statement name word blanks rest := by
  obtain ⟨word, keyword, found⟩ := exists_of_findSome?_eq_some read
  split at found
  · next declared rest named =>
    cases found
    obtain ⟨after, skipped, named⟩ := bind_eq_some_iff.mp named
    obtain ⟨tail, stripped, skipped⟩ := bind_eq_some_iff.mp skipped
    obtain ⟨blanks, rfl, gap, blank, -⟩ := afterBlanks?_eq_some_iff.mp skipped
    obtain ⟨rfl, declarable, stops⟩ := name?_eq_some_iff.mp named
    exact ⟨word, blanks, rest, Text.eq_append_of_isPrefixOf? stripped, keyword, gap, blank,
      declarable, stops⟩
  · exact absurd found (by simp)

/-- The declared name is the one that the shape of the statement shows. -/
theorem Declares.declaredName?_eq (declares : Declares statement name word blanks rest) :
    Declaration.declaredName? statement = some name := by
  have read : (Declaration.declaredName? statement).isSome = true := by
    rw [Declaration.declaredName?, List.findSome?_isSome_iff]
    refine ⟨word, declares.keyword, ?_⟩
    have stripped : word.isPrefixOf? statement = some (blanks ++ (name ++ rest)) :=
      List.isPrefixOf?_eq_some_iff_append_eq.mpr declares.shape.symm
    have skipped : afterBlanks? (blanks ++ (name ++ rest)) = some (name ++ rest) :=
      afterBlanks?_eq_some_iff.mpr ⟨blanks, rfl, declares.gap, declares.blank,
        declares.declarable.isBlank_head? rest⟩
    have named : name? (name ++ rest) = some (name, rest) :=
      name?_eq_some_iff.mpr ⟨rfl, declares.declarable, declares.stops⟩
    rw [stripped, bind_some, skipped, bind_some, named]
    rfl
  -- Whichever keyword is tried first, the name after it is the same.
  obtain ⟨found, same⟩ := isSome_iff_exists.mp read
  obtain ⟨_, _, _, other⟩ := declares_of_declaredName? same
  rw [same, declares.name_eq, other.name_eq]

theorem scanFrom_blanks (blank : ∀ c ∈ blanks, Text.isBlank c = true) (before rest : Text) :
    Lexeme.scanFrom before (blanks ++ rest) =
      blanks.map .symbol ++ Lexeme.scanFrom (blanks.reverse ++ before) rest := by
  induction blanks generalizing before with
  | nil => rfl
  | cons c blanks ih =>
    obtain ⟨head, tail⟩ := forall_mem_cons.mp blank
    obtain ⟨inert, slash, outside⟩ := inert_of_isBlank head
    have reads : Lexeme.Reads before (.symbol c) (blanks ++ rest) := .symbol inert slash outside _
    have read := reads.scanFrom_eq
    rw [ih tail] at read
    simpa [Lexeme.text] using read

/-- A lexeme of a name also stands where more text follows the name. -/
theorem reads_append {other tail : Text} {lexeme : Lexeme} (reads : Lexeme.Reads other lexeme tail)
    (chars : ∀ c ∈ lexeme.text, isNameChar c = true)
    (stops : ∀ c ∈ rest.head?, isNameChar c = false) (apart : Lexeme.dotRun before = 0)
    (free : Lexeme.dotRun other = 0) : Lexeme.Reads before lexeme (tail ++ rest) := by
  have after (ends : ∀ c ∈ tail.head?, isWordChar c = false) :
      ∀ c ∈ (tail ++ rest).head?, isWordChar c = false := by
    cases tail with
    | nil =>
      exact fun c first => isWordChar_eq_false (stops c first)
    | cons d tail => exact ends
  cases reads with
  | literal opens closed rest =>
    rw [(inert_of_isNameChar (chars _ mem_cons_self)).1] at opens
    exact Bool.noConfusion opens
  | openLiteral opens endless =>
    rw [(inert_of_isNameChar (chars _ mem_cons_self)).1] at opens
    exact Bool.noConfusion opens
  | line | block | openBlock | regex | slash =>
    exact absurd rfl (inert_of_isNameChar (chars _ mem_cons_self)).2
  | number begins inside ends => exact .number begins inside (after ends)
  | word begins inside ends form =>
    refine .word begins inside (after ends) (form.trans ?_)
    rw [Lexeme.ofWord, Lexeme.ofWord, namesProperty_eq, namesProperty_eq, apart, free]
  | symbol inert slash outside rest => exact .symbol inert slash outside _

/-- What is read of a name does not depend on what stands around it, unless dots stand before. -/
theorem scanFrom_nameText (chars : ∀ c ∈ text, isNameChar c = true)
    (stops : ∀ c ∈ rest.head?, isNameChar c = false) {other : Text}
    (apart : Lexeme.dotRun before = 0) (free : Lexeme.dotRun other = 0) :
    Lexeme.scanFrom before (text ++ rest) =
      Lexeme.scanFrom other text ++ Lexeme.scanFrom (text.reverse ++ before) rest := by
  induction other, text using scan_induction generalizing before with
  | nil other => simp [Lexeme.scanFrom]
  | step other lexeme tail reads ih =>
    have inside : ∀ c ∈ lexeme.text, isNameChar c = true := fun c member =>
      chars c (mem_append_left _ member)
    have dotless : '.' ∉ lexeme.text := fun dot => absurd (inside '.' dot) (by decide)
    have moved : Lexeme.Reads before lexeme (tail ++ rest) :=
      reads_append reads inside stops apart free
    rw [append_assoc, moved.scanFrom_eq, reads.scanFrom_eq, cons_append,
      ih (fun c member => chars c (mem_append_right _ member))
        (dotRun_reverse_append reads.text_ne_nil dotless before)
        (dotRun_reverse_append reads.text_ne_nil dotless other)]
    simp

/-- Code that begins with no word keeps its first character. -/
theorem head?_flatMap_render (substitute : Text → Option Text) {code : Text}
    (outside : ∀ c ∈ code.head?, isWordChar c = false) :
    ((Lexeme.scanFrom before code).flatMap (Lexeme.render substitute)).head? = code.head? := by
  induction before, code using scan_induction with
  | nil before => simp [Lexeme.scanFrom]
  | step before lexeme rest reads ih =>
    rw [reads.scanFrom_eq, flatMap_cons]
    rcases render_cases substitute lexeme with ⟨kept, -⟩ | ⟨name, text, rfl, -⟩
    · rw [kept, List.head?_append_of_ne_nil _ reads.text_ne_nil,
        List.head?_append_of_ne_nil _ reads.text_ne_nil]
    · obtain ⟨others, rfl, -, -⟩ := reads.isPoint.1
      exact absurd (outside '_' rfl) (by decide)

/-- A substitution acts on the name of a declaration as it acts on the name alone. -/
theorem Declares.render_eq (declares : Declares statement name word blanks rest)
    (substitute : Text → Option Text) :
    ∃ tail, (Fragment.parse statement).render substitute =
        word ++ (blanks ++ ((Fragment.parse name).render substitute ++ tail)) ∧
      ∀ c ∈ tail.head?, isNameChar c = false := by
  obtain ⟨isName, plain⟩ := isName_of_mem_keywords declares.keyword
  have spaced : ∀ c ∈ (blanks ++ (name ++ rest)).head?, isWordChar c = false := by
    obtain ⟨d, others, rfl⟩ := exists_cons_of_ne_nil declares.gap
    intro c first
    cases first
    exact (inert_of_isBlank (declares.blank d mem_cons_self)).2.2
  have dotless : '.' ∉ blanks := fun dot => absurd (declares.blank '.' dot) (by decide)
  have keyword : Lexeme.ofWord [] word = .word word := by simp [Lexeme.ofWord, plain]
  have symbols : (blanks.map Lexeme.symbol).flatMap (Lexeme.render substitute) = blanks := by
    rw [flatMap_map]
    exact flatMap_singleton' blanks
  refine ⟨(Lexeme.scanFrom (name.reverse ++ (blanks.reverse ++ (word.reverse ++ []))) rest).flatMap
    (Lexeme.render substitute), ?_, ?_⟩
  · rw [Fragment.render_parse, Fragment.render_parse, declares.shape, Lexeme.scan,
      scanFrom_name isName spaced, keyword, scanFrom_blanks declares.blank,
      scanFrom_nameText declares.declarable.isNameChar declares.stops
        (dotRun_reverse_append declares.gap dotless _) (Eq.refl (Lexeme.dotRun []))]
    rw [flatMap_cons, flatMap_append, flatMap_append, symbols]
    rfl
  · rw [head?_flatMap_render substitute fun c first => isWordChar_eq_false (declares.stops c first)]
    exact declares.stops

end ComponentPack.Render
