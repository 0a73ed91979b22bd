import Mathlib
import ComponentPack.Proofs.Code.Reads

/-!
Replacing substitution points by names keeps the reading of everything else. Two scans run side by
side: one over the code, one over the code with replacements. The texts before them differ, but a
scanner sees the same in both; the texts after them differ, but every lexeme ends at the same place.
-/

set_option autoImplicit false

namespace ComponentPack.Code.Lexeme

open List Option Bool

variable {text other before rest name : Text}

/-- Two texts, given backwards, before the same code: what a scanner looks back for is alike, and
the words that they end with are equal unless they are over. -/
structure SameContext (before other code : Text) : Prop where
  regex : opensRegex before = opensRegex other
  dots : min 3 (dotRun before) = min 3 (dotRun other)
  run : before.takeWhile isWordChar = other.takeWhile isWordChar ∨
    ∀ c ∈ code.head?, isWordChar c = false

theorem opensRegex_cons (c : Char) (before : Text) :
    opensRegex (c :: before) =
      if Text.isAsciiBlank c then opensRegex before
      else if isWordChar c then regexKeywords.contains (c :: before.takeWhile isWordChar).reverse
      else c != ')' && c != ']' && c != '"' && c != '\'' && c != '\x60' := by
  by_cases blank : Text.isAsciiBlank c = true
  · rw [if_pos blank, opensRegex, dropWhile_cons_of_pos blank]
    rfl
  · rw [if_neg blank, opensRegex, dropWhile_cons_of_neg blank]
    dsimp only
    by_cases inside : isWordChar c = true
    · rw [if_pos inside, if_pos inside, takeWhile_cons_of_pos inside]
    · rw [if_neg inside, if_neg inside]

namespace SameContext

variable {before other code : Text}

theorem namesProperty_eq (same : SameContext before other code) :
    namesProperty before = namesProperty other := by
  have dots := same.dots
  rw [Lexeme.namesProperty_eq, Lexeme.namesProperty_eq, decide_eq_decide]
  omega

theorem ofWord_eq (same : SameContext before other code) (word : Text) :
    ofWord before word = ofWord other word := by
  rw [ofWord, ofWord, same.namesProperty_eq]

theorem cons {c : Char} (same : SameContext before other (c :: code)) (rest : Text) :
    SameContext (c :: before) (c :: other) rest := by
  have run : isWordChar c = true → before.takeWhile isWordChar = other.takeWhile isWordChar := by
    intro inside
    rcases same.run with equal | stops
    · exact equal
    · exact absurd inside (by simp [stops c rfl])
  refine ⟨?_, ?_, .inl ?_⟩
  · rw [opensRegex_cons, opensRegex_cons, same.regex]
    by_cases inside : isWordChar c = true
    · rw [run inside]
    · rw [if_neg inside, if_neg inside]
  · have dots := same.dots
    rw [dotRun_cons, dotRun_cons]
    split <;> omega
  · by_cases inside : isWordChar c = true
    · rw [takeWhile_cons_of_pos inside, takeWhile_cons_of_pos inside, run inside]
    · rw [takeWhile_cons_of_neg inside, takeWhile_cons_of_neg inside]

/-- What is read in both scans becomes part of both texts before. -/
theorem append (nonempty : text ≠ []) (same : SameContext before other (text ++ code)) :
    SameContext (text.reverse ++ before) (text.reverse ++ other) code := by
  induction text generalizing before other with
  | nil => exact absurd rfl nonempty
  | cons c text ih =>
    rw [reverse_cons, append_assoc, append_assoc]
    cases text with
    | nil => exact same.cons code
    | cons d text => exact ih (by simp) (same.cons _)

end SameContext

/-- Names, as they are replaced and as they replace. -/
def isPath (text : Text) : Bool :=
  text.head?.any isWordChar && text.all fun c => isWordChar c || c == '.'

/-- A text and a copy of it in which names have been exchanged for names. -/
inductive Disguised : Text → Text → Prop where
  | nil : Disguised [] []
  | same {code other : Text} (c : Char) : Disguised code other → Disguised (c :: code) (c :: other)
  | swap {name replacement code other : Text} (old : isPath name = true)
      (new : isPath replacement = true) :
      Disguised code other → Disguised (name ++ code) (replacement ++ other)

theorem exists_cons_of_isPath (path : isPath text = true) :
    ∃ c rest, text = c :: rest ∧ isWordChar c = true ∧
      ∀ d ∈ text, isWordChar d = true ∨ d = '.' := by
  obtain ⟨first, chars⟩ := and_eq_true_iff.mp path
  cases text with
  | nil => exact Bool.noConfusion first
  | cons c rest =>
    refine ⟨c, rest, rfl, first, fun d member => ?_⟩
    simpa using all_eq_true.mp chars d member

namespace Disguised

variable {code other : Text}

theorem append (disguised : Disguised code other) (text : Text) :
    Disguised (text ++ code) (text ++ other) := by
  induction text with
  | nil => exact disguised
  | cons c text ih => exact ih.same c

theorem eq_nil (disguised : Disguised [] other) : other = [] := by
  generalize same : ([] : Text) = code at disguised
  cases disguised with
  | nil => rfl
  | same c tail => exact absurd same (by simp)
  | swap old new tail =>
    obtain ⟨c, rest, rfl, -, -⟩ := exists_cons_of_isPath old
    exact absurd same (by simp)

theorem cons_ne_nil {c : Char} (disguised : Disguised (c :: code) other) : other ≠ [] := by
  generalize same : c :: code = text at disguised
  cases disguised with
  | nil => exact absurd same (by simp)
  | same c tail => simp
  | swap old new tail =>
    obtain ⟨c, rest, rfl, -, -⟩ := exists_cons_of_isPath new
    simp

/-- A condition on the next character that all characters of words share carries over. -/
theorem head_imp (disguised : Disguised code other) {P : Char → Prop}
    (uniform : ∀ c d, isWordChar c = true → isWordChar d = true → P c → P d)
    (holds : ∀ c ∈ code.head?, P c) : ∀ c ∈ other.head?, P c := by
  intro d first
  cases disguised with
  | nil => cases first
  | same c tail =>
    cases first
    exact holds d rfl
  | swap old new tail =>
    obtain ⟨c, rest, rfl, inside, -⟩ := exists_cons_of_isPath old
    obtain ⟨e, others, rfl, fresh, -⟩ := exists_cons_of_isPath new
    cases first
    exact uniform c d inside fresh (holds c rfl)

theorem stops (disguised : Disguised code other) (holds : ∀ c ∈ code.head?, isWordChar c = false) :
    ∀ c ∈ other.head?, isWordChar c = false :=
  disguised.head_imp (fun c d inside _ outside => by simp [inside] at outside) holds

end Disguised

/-- Names are passed over inside and outside of brackets. -/
theorem regexTail?_isSome_append (chars : ∀ c ∈ text, isWordChar c = true ∨ c = '.')
    (inClass : Bool) (rest : Text) :
    (regexTail? inClass (text ++ rest)).isSome = (regexTail? inClass rest).isSome := by
  induction text with
  | nil => rfl
  | cons c text ih =>
    obtain ⟨head, tail⟩ := forall_mem_cons.mp chars
    have marks : c ≠ '\\' ∧ c ≠ '\n' ∧ c ≠ '/' ∧ c ≠ '[' ∧ c ≠ ']' := by
      refine ⟨?_, ?_, ?_, ?_, ?_⟩ <;> rintro rfl <;> exact absurd head (by decide)
    obtain ⟨single, line, slash, opening, closing⟩ := marks
    rw [cons_append, regexTail?_plain single line (absurd · slash), isSome_map,
      classAfter, if_neg opening, if_neg closing, ih tail]

/-- A regular expression ends in the copy if it ends in the text. An escape may reach into a name,
so the same is shown of what follows the next character. -/
theorem Disguised.regexTail?_isSome {code : Text} (disguised : Disguised code other)
    (inClass : Bool) :
    (regexTail? inClass code).isSome = (regexTail? inClass other).isSome ∧
      (regexTail? inClass code.tail).isSome = (regexTail? inClass other.tail).isSome := by
  induction disguised generalizing inClass with
  | nil => exact ⟨rfl, rfl⟩
  | @same code other c disguised ih =>
    refine ⟨?_, (ih inClass).1⟩
    -- After a backslash the next character is skipped, be it the first one of a name.
    by_cases escape : c = '\\'
    · subst escape
      cases code with
      | nil => rw [disguised.eq_nil]
      | cons d code =>
        obtain ⟨e, others, rfl⟩ := exists_cons_of_ne_nil disguised.cons_ne_nil
        rw [regexTail?_escape, regexTail?_escape, isSome_map, isSome_map]
        exact (ih inClass).2
    · by_cases line : c = '\n'
      · subst line
        rw [regexTail?.eq_def, regexTail?.eq_def]
        simp
      · by_cases closes : c = '/' → inClass = true
        · rw [regexTail?_plain escape line closes, regexTail?_plain escape line closes,
            isSome_map, isSome_map]
          exact (ih _).1
        · obtain ⟨rfl, outside⟩ := Classical.not_imp.mp closes
          obtain rfl : inClass = false := by simpa using outside
          rw [regexTail?_slash, regexTail?_slash]
          rfl
  | @swap name replacement code other old new disguised ih =>
    obtain ⟨c, rest, rfl, -, chars⟩ := exists_cons_of_isPath old
    obtain ⟨d, others, rfl, -, marks⟩ := exists_cons_of_isPath new
    constructor
    · rw [regexTail?_isSome_append chars, regexTail?_isSome_append marks]
      exact (ih inClass).1
    · rw [cons_append, cons_append, tail_cons, tail_cons,
        regexTail?_isSome_append (forall_mem_cons.mp chars).2,
        regexTail?_isSome_append (forall_mem_cons.mp marks).2]
      exact (ih inClass).1

/-- A lexeme that stands somewhere in the code also stands there in the copy. -/
theorem Reads.disguise {copy : Text} {lexeme : Lexeme} (reads : Reads before lexeme rest)
    (same : SameContext before other (lexeme.text ++ rest)) (disguised : Disguised rest copy) :
    Reads other lexeme copy := by
  cases reads with
  | literal opens closed rest => exact .literal opens closed copy
  | openLiteral opens endless =>
    rw [disguised.eq_nil]
    exact .openLiteral opens endless
  | line inside stops =>
    refine .line inside (disguised.head_imp (fun c d letter _ feed => ?_) stops)
    rw [feed] at letter
    exact absurd letter (by decide)
  | block closed rest => exact .block closed copy
  | openBlock endless =>
    rw [disguised.eq_nil]
    exact .openBlock endless
  | regex expected closed block chars stops =>
    exact .regex (same.regex ▸ expected) closed block chars (disguised.stops stops)
  | slash apart bare =>
    refine .slash (disguised.head_imp (fun c d _ letter _ => ?_) apart) fun expected => ?_
    · refine ⟨?_, ?_⟩ <;> rintro rfl <;> exact absurd letter (by decide)
    · have missing := bare (same.regex ▸ expected)
      have ends := (disguised.regexTail?_isSome false).1
      rw [missing] at ends
      exact not_isSome_iff_eq_none.mp (by simp [← ends])
  | number begins chars stops => exact .number begins chars (disguised.stops stops)
  | word begins chars stops form =>
    exact .word begins chars (disguised.stops stops) (form.trans (same.ofWord_eq _))
  | symbol inert slash outside rest => exact .symbol inert slash outside copy

/-- The names that a substitution may replace. -/
def IsPoint (name : Text) : Prop :=
  ∃ others, name = '_' :: others ∧ others ≠ [] ∧ ∀ c ∈ others, isWordChar c = true

theorem Reads.isPoint (reads : Reads before (.identifier name) rest) :
    IsPoint name ∧ ∀ c ∈ rest.head?, isWordChar c = false := by
  cases reads with
  | @word first others rest _ begins chars stops form =>
    rw [ofWord] at form
    split at form
    · next point =>
      obtain ⟨long, mark, -⟩ := point
      cases form
      cases mark
      refine ⟨⟨others, rfl, ?_, chars⟩, stops⟩
      rintro rfl
      exact absurd long (by decide)
    · exact Lexeme.noConfusion form

/-- Whether a text is a word that begins with no digit. -/
def isName : Text → Bool
  | [] => false
  | c :: rest => isWordStart c && rest.all isWordChar

/-- A text that may replace a substitution point: names with dots between them, the first of which
is no substitution point and the last of which ends an operand whatever stands before it. -/
structure Replacement (text : Text) : Prop where
  path : ∃ (first : Text) (words : List Text), text = first ++ words.flatMap ('.' :: ·) ∧
    isName first = true ∧ first.head? ≠ some '_' ∧ ∀ word ∈ words, isName word = true
  operand : ∀ before, opensRegex (text.reverse ++ before) = false

theorem exists_cons_of_isName (name : isName text = true) :
    ∃ c rest, text = c :: rest ∧ isWordStart c = true ∧ ∀ d ∈ rest, isWordChar d = true := by
  cases text with
  | nil => exact Bool.noConfusion name
  | cons c rest =>
    obtain ⟨begins, chars⟩ := and_eq_true_iff.mp name
    exact ⟨c, rest, rfl, begins, all_eq_true.mp chars⟩

theorem isWordChar_of_mem_isName (name : isName text = true) : ∀ c ∈ text, isWordChar c = true := by
  obtain ⟨c, rest, rfl, begins, chars⟩ := exists_cons_of_isName name
  exact forall_mem_cons.mpr ⟨isWordChar_of_isWordStart begins, chars⟩

/-- A word is cut off before what ends it. -/
theorem scanFrom_name {word rest : Text} (name : isName word = true)
    (stops : ∀ c ∈ rest.head?, isWordChar c = false) (before : Text) :
    scanFrom before (word ++ rest) =
      ofWord before word :: scanFrom (word.reverse ++ before) rest := by
  obtain ⟨c, others, rfl, begins, chars⟩ := exists_cons_of_isName name
  have read := (Reads.word begins chars stops (Eq.refl (ofWord before _))).scanFrom_eq
  rwa [text_ofWord] at read

theorem stops_flatMap_dot (stops : ∀ c ∈ rest.head?, isWordChar c = false) (words : List Text) :
    ∀ c ∈ (words.flatMap ('.' :: ·) ++ rest).head?, isWordChar c = false := by
  cases words with
  | nil => exact stops
  | cons word words =>
    intro c first
    cases first
    decide

theorem dotRun_name {word : Text} (name : isName word = true) (before : Text) :
    dotRun (word.reverse ++ before) = 0 := by
  refine dotRun_reverse_append ?_ (fun dot => ?_) before
  · rintro rfl
    exact Bool.noConfusion name
  · exact absurd (isWordChar_of_mem_isName name '.' dot) (by decide)

theorem dotRun_dots {words : List Text} (names : ∀ word ∈ words, isName word = true)
    (apart : dotRun before = 0) : dotRun ((words.flatMap ('.' :: ·)).reverse ++ before) = 0 := by
  induction words generalizing before with
  | nil => exact apart
  | cons word words ih =>
    obtain ⟨name, others⟩ := forall_mem_cons.mp names
    have read := ih others (dotRun_name name ('.' :: before))
    simpa using read

/-- Names after dots are no substitution points. -/
theorem filterMap_scanFrom_dots {words : List Text} (names : ∀ word ∈ words, isName word = true)
    (stops : ∀ c ∈ rest.head?, isWordChar c = false) (apart : dotRun before = 0) :
    (scanFrom before (words.flatMap ('.' :: ·) ++ rest)).filterMap identifier? =
      (scanFrom ((words.flatMap ('.' :: ·)).reverse ++ before) rest).filterMap identifier? := by
  induction words generalizing before with
  | nil => rfl
  | cons word words ih =>
    obtain ⟨name, others⟩ := forall_mem_cons.mp names
    have dot : Reads before (.symbol '.') (word ++ (words.flatMap ('.' :: ·) ++ rest)) :=
      .symbol (by decide) (by decide) (by decide) _
    have property : ofWord ('.' :: before) word = .word word := by
      have after : namesProperty ('.' :: before) = true := by
        rw [namesProperty_eq, dotRun_cons, if_pos rfl, apart]
        rfl
      rw [ofWord, after]
      simp
    have split : (word :: words).flatMap ('.' :: ·) ++ rest =
        Lexeme.text (.symbol '.') ++ (word ++ (words.flatMap ('.' :: ·) ++ rest)) := by
      simp [text]
    rw [split, dot.scanFrom_eq]
    change List.filterMap identifier?
      (.symbol '.' :: scanFrom ('.' :: before) (word ++ (words.flatMap ('.' :: ·) ++ rest))) = _
    rw [scanFrom_name name (stops_flatMap_dot stops words), property]
    change List.filterMap identifier? (scanFrom (word.reverse ++ '.' :: before) _) = _
    rw [ih others (dotRun_name name _)]
    simp

namespace Replacement

variable {text : Text}

theorem isPath (replacement : Replacement text) : isPath text = true := by
  obtain ⟨first, words, rfl, name, -, names⟩ := replacement.path
  obtain ⟨c, others, rfl, begins, chars⟩ := exists_cons_of_isName name
  rw [Lexeme.isPath, and_eq_true_iff]
  refine ⟨isWordChar_of_isWordStart begins, all_eq_true.mpr fun d member => ?_⟩
  rw [or_eq_true_iff, beq_iff_eq]
  rcases mem_append.mp member with inside | inside
  · exact .inl (isWordChar_of_mem_isName name d inside)
  · obtain ⟨word, known, part⟩ := mem_flatMap.mp inside
    rcases mem_cons.mp part with dot | inside
    · exact .inr dot
    · exact .inl (isWordChar_of_mem_isName (names word known) d inside)

theorem dotRun_eq (replacement : Replacement text) (before : Text) :
    dotRun (text.reverse ++ before) = 0 := by
  obtain ⟨first, words, rfl, name, -, names⟩ := replacement.path
  rw [reverse_append, append_assoc]
  exact dotRun_dots names (dotRun_name name before)

/-- A replacement brings no substitution point. -/
theorem filterMap_scanFrom (replacement : Replacement text)
    (stops : ∀ c ∈ rest.head?, isWordChar c = false) (before : Text) :
    (scanFrom before (text ++ rest)).filterMap identifier? =
      (scanFrom (text.reverse ++ before) rest).filterMap identifier? := by
  obtain ⟨first, words, rfl, name, mark, names⟩ := replacement.path
  have plain : ofWord before first = .word first := by simp [ofWord, mark]
  rw [append_assoc, scanFrom_name name (stops_flatMap_dot stops words), plain,
    filterMap_cons_none rfl, filterMap_scanFrom_dots names stops (dotRun_name name before),
    reverse_append, append_assoc]

end Replacement

theorem isWordChar_of_isPoint (point : IsPoint name) : ∀ c ∈ name, isWordChar c = true := by
  obtain ⟨others, rfl, -, chars⟩ := point
  exact forall_mem_cons.mpr ⟨by decide, chars⟩

theorem isPath_of_isPoint (point : IsPoint name) : isPath name = true := by
  have chars := isWordChar_of_isPoint point
  obtain ⟨others, rfl, -, -⟩ := point
  rw [isPath, and_eq_true_iff]
  refine ⟨rfl, all_eq_true.mpr fun c member => ?_⟩
  rw [chars c member]
  rfl

/-- A word with a character that no keyword has ends an operand, whatever stands before it. -/
theorem opensRegex_of_mark {word : Text} {mark : Char} (chars : ∀ c ∈ word, isWordChar c = true)
    (foreign : ∀ keyword ∈ regexKeywords, mark ∉ keyword) (member : mark ∈ word) (before : Text) :
    opensRegex (word.reverse ++ before) = false := by
  obtain ⟨c, others, same⟩ :=
    exists_cons_of_ne_nil (reverse_ne_nil_iff.mpr (ne_nil_of_mem member))
  obtain ⟨inside, tail⟩ := forall_mem_cons.mp fun d (part : d ∈ c :: others) =>
    chars d (mem_reverse.mp (same ▸ part))
  rw [same, cons_append, opensRegex_cons, isAsciiBlank_of_isWordChar inside,
    if_neg Bool.false_ne_true, if_pos inside, takeWhile_append_of_pos tail, ← cons_append,
    ← same, reverse_append, reverse_reverse]
  by_contra keyword
  rw [not_eq_false, contains_iff_mem] at keyword
  exact foreign _ keyword (mem_append_right _ member)

theorem underscore_not_mem_keyword : ∀ keyword ∈ regexKeywords, '_' ∉ keyword := by
  decide

theorem opensRegex_of_isPoint (point : IsPoint name) (before : Text) :
    opensRegex (name.reverse ++ before) = false := by
  have chars := isWordChar_of_isPoint point
  obtain ⟨others, rfl, -, -⟩ := point
  exact opensRegex_of_mark chars underscore_not_mem_keyword mem_cons_self before

theorem dotRun_of_isPoint (point : IsPoint name) (before : Text) :
    dotRun (name.reverse ++ before) = 0 := by
  obtain ⟨others, rfl, -, chars⟩ := point
  refine dotRun_name ?_ before
  rw [isName, and_eq_true_iff]
  exact ⟨by decide, all_eq_true.mpr chars⟩

/-- A lexeme is kept, or it is a substitution point and is replaced. -/
theorem render_cases (substitute : Text → Option Text) (lexeme : Lexeme) :
    (lexeme.render substitute = lexeme.text ∧
      ∀ name ∈ lexeme.identifier?, substitute name = none) ∨
    ∃ name text, lexeme = .identifier name ∧ substitute name = some text := by
  cases lexeme with
  | identifier name =>
    cases found : substitute name with
    | none => exact .inl ⟨by simp [render, found, text], by simp [identifier?, found]⟩
    | some text => exact .inr ⟨name, text, rfl, found⟩
  | _ => exact .inl ⟨rfl, by simp [identifier?]⟩

section Substitution

variable {substitute : Text → Option Text}
  (proper : ∀ name, IsPoint name → ∀ text, substitute name = some text → Replacement text)
include proper

theorem disguised_render (before code : Text) :
    Disguised code ((scanFrom before code).flatMap (render substitute)) := by
  induction before, code using scan_induction with
  | nil before =>
    rw [scanFrom]
    exact .nil
  | step before lexeme rest reads ih =>
    rw [reads.scanFrom_eq, flatMap_cons]
    rcases render_cases substitute lexeme with ⟨kept, -⟩ | ⟨name, text, rfl, replaced⟩
    · rw [kept]
      exact ih.append lexeme.text
    · have point := reads.isPoint.1
      have rendered : render substitute (.identifier name) = text := by simp [render, replaced]
      rw [rendered]
      exact .swap (isPath_of_isPoint point) (proper name point text replaced).isPath ih

/-- The substitution points of code with replacements are those of the code that have no
substitute. -/
theorem filterMap_scanFrom_render {code : Text} (same : SameContext before other code) :
    (scanFrom other ((scanFrom before code).flatMap (render substitute))).filterMap identifier? =
      ((scanFrom before code).filterMap identifier?).filter
        fun name => (substitute name).isNone := by
  induction before, code using scan_induction generalizing other with
  | nil before => simp [scanFrom]
  | step before lexeme rest reads ih =>
    -- The lexeme is read again before the copy of what follows it.
    have copy := disguised_render proper (lexeme.text.reverse ++ before) rest
    rw [reads.scanFrom_eq, flatMap_cons]
    rcases render_cases substitute lexeme with ⟨kept, free⟩ | ⟨name, text, rfl, replaced⟩
    · rw [kept, (reads.disguise same copy).scanFrom_eq, filterMap_cons, filterMap_cons,
        ih (same.append reads.text_ne_nil)]
      cases point : lexeme.identifier? with
      | none => rfl
      | some name => simp [free name point]
    · obtain ⟨point, stops⟩ := reads.isPoint
      have replacement := proper name point text replaced
      have rendered : render substitute (.identifier name) = text := by simp [render, replaced]
      -- After the name and after its replacement an operand has ended, and so has the word.
      have after : SameContext (name.reverse ++ before) (text.reverse ++ other) rest := by
        refine ⟨?_, ?_, .inr stops⟩
        · rw [opensRegex_of_isPoint point, replacement.operand]
        · rw [dotRun_of_isPoint point, replacement.dotRun_eq]
      rw [rendered, replacement.filterMap_scanFrom (copy.stops stops)]
      simp only [identifier?, filterMap_cons]
      rw [filter_cons_of_neg (by simp [replaced])]
      exact ih after

end Substitution

end ComponentPack.Code.Lexeme

namespace ComponentPack.Code.Fragment

open Lexeme (IsPoint Replacement)

/-- Only the substitutes of substitution points count. -/
theorem render_congr {fragment : Fragment} {substitute other : Text → Option Text}
    (same : ∀ name ∈ fragment.identifiers, substitute name = other name) :
    fragment.render substitute = fragment.render other := by
  refine List.flatMap_congr fun segment member => ?_
  cases segment with
  | plain text => rfl
  | identifier name =>
    have found : name ∈ fragment.identifiers := List.mem_filterMap.mpr ⟨_, member, rfl⟩
    rw [Segment.render, Segment.render, same name found]

/-- What has no substitute anywhere stays as it is. -/
theorem render_eq_source {fragment : Fragment} {substitute : Text → Option Text}
    (free : ∀ name ∈ fragment.identifiers, substitute name = none) :
    fragment.render substitute = fragment.source :=
  render_congr free

section Substitution

variable {substitute : Text → Option Text}
  (proper : ∀ name, IsPoint name → ∀ text, substitute name = some text → Replacement text)
include proper

theorem identifiers_parse_render (code : Text) :
    (parse ((parse code).render substitute)).identifiers =
      (parse code).identifiers.filter fun name => (substitute name).isNone := by
  rw [identifiers_parse, identifiers_parse, render_parse]
  exact Lexeme.filterMap_scanFrom_render proper ⟨rfl, rfl, .inl rfl⟩

/-- Substituting once more changes nothing. -/
theorem render_parse_render (code : Text) :
    (parse ((parse code).render substitute)).render substitute =
      (parse code).render substitute := by
  rw [render_eq_source, source_parse]
  intro name member
  rw [identifiers_parse_render proper] at member
  simpa using (List.mem_filter.mp member).2

end Substitution

end ComponentPack.Code.Fragment
