import Mathlib
import ComponentPack.Proofs.Code.Places

/-!
Block comments in the place of blanks. A comment keeps words apart as a space does, so the code
around it is read alike, as long as its first slash does not end something that began before it. Its
last slash, however, looks to the scanner as if no operand stood before.
-/

set_option autoImplicit false

namespace ComponentPack.Code

open List

open Lexeme (Reads Reached BeginsRegex SameEnd SameContext opensRegex regexTail? isWordChar)

/-- A block comment with this inside. -/
def blockComment (body : Text) : Text := '/' :: '*' :: (body ++ ['*', '/'])

namespace Lexeme

/-- A slash that is read alone begins neither a comment nor a regular expression. -/
theorem Reads.of_slash {before rest : Text} (reads : Reads before (.symbol '/') rest) :
    (∀ c ∈ rest.head?, c ≠ '/' ∧ c ≠ '*') ∧
      (opensRegex before = true → regexTail? false rest = none) := by
  generalize same : Lexeme.symbol '/' = lexeme at reads
  cases reads with
  | slash apart bare => exact ⟨apart, bare⟩
  | word begins chars stops form =>
    rw [form, ofWord] at same
    split at same <;> exact Lexeme.noConfusion same
  | symbol inert slash =>
    cases same
    exact absurd rfl slash
  | _ => exact Lexeme.noConfusion same

/-- Where a space ends a lexeme, or where the lexeme ends before, a comment in the place of the
space ends it too. Only slashes see farther than that. -/
theorem Reads.of_space {before middle after body : Text} {lexeme : Lexeme}
    (reads : Reads before lexeme (middle ++ ' ' :: after))
    (slash : lexeme = .symbol '/' → middle ≠ [] ∧ (opensRegex before = true →
      regexTail? false (middle ++ (blockComment body ++ after)) = none)) :
    Reads before lexeme (middle ++ (blockComment body ++ after)) := by
  have stops (ends : ∀ c ∈ (middle ++ ' ' :: after).head?, isWordChar c = false) :
      ∀ c ∈ (middle ++ (blockComment body ++ after)).head?, isWordChar c = false := by
    cases middle with
    | nil => exact fun c first => by cases first; decide
    | cons d middle => exact ends
  generalize whole : middle ++ ' ' :: after = rest at reads
  cases reads with
  | literal opens closed => exact .literal opens closed _
  | openLiteral | openBlock => exact absurd whole (by simp)
  | line inside feed =>
    subst whole
    cases middle with
    | nil => exact absurd (feed ' ' rfl) (by decide)
    | cons d middle => exact .line inside feed
  | block closed => exact .block closed _
  | regex expected closed block chars ends =>
    subst whole
    exact .regex expected closed block chars (stops ends)
  | slash apart bare =>
    subst whole
    obtain ⟨nonempty, missing⟩ := slash rfl
    obtain ⟨d, middle, rfl⟩ := exists_cons_of_ne_nil nonempty
    exact .slash apart missing
  | number begins chars ends =>
    subst whole
    exact .number begins chars (stops ends)
  | word begins chars ends form =>
    subst whole
    exact .word begins chars (stops ends) form
  | symbol inert other outside => exact .symbol inert other outside _

/-- A comment in the place of a space is reached if and only if no slash alone stands right before
it and no slash that stood alone becomes the beginning of a regular expression. -/
theorem reached_blockComment_iff {front after : Text} (reached : Reached [] front (' ' :: after))
    (body : Text) :
    Reached [] front (blockComment body ++ after) ↔
      (scan front).getLast? ≠ some (.symbol '/') ∧
      ∀ read later, scan front = read ++ .symbol '/' :: later →
        opensRegex (read.flatMap text).reverse = true →
        regexTail? false (later.flatMap text ++ (blockComment body ++ after)) = none := by
  constructor
  · intro commented
    have alone (read later : List Lexeme) (cut : scan front = read ++ .symbol '/' :: later) :=
      (reached_iff_reads.mp commented read _ later cut).of_slash
    constructor
    · intro last
      obtain ⟨read, cut⟩ := getLast?_eq_some_iff.mp last
      exact ((alone read [] cut).1 '/' rfl).1 rfl
    · intro read later cut expected
      exact (alone read later cut).2 (by rwa [append_nil])
  · rintro ⟨last, missing⟩
    refine reached_iff_reads.mpr fun read lexeme later cut => ?_
    have spaced := reached_iff_reads.mp reached read lexeme later cut
    refine spaced.of_space fun slash => ⟨?_, fun expected => ?_⟩
    · subst slash
      cases later with
      | nil => exact absurd (getLast?_eq_some_iff.mpr ⟨read, cut⟩) last
      | cons other later =>
        have next := reads_of_scanFrom (cut.trans (append_cons read _ _))
        exact append_ne_nil_of_left_ne_nil next.text_ne_nil _
    · subst slash
      rw [append_nil] at expected
      exact missing read later cut expected

theorem reverse_blockComment_append (before body : Text) :
    (blockComment body).reverse ++ before =
      '/' :: '*' :: (body.reverse ++ ('*' :: '/' :: before)) := by
  simp [blockComment]

/-- After a comment and after a space the same words go on: none. -/
theorem sameEnd_blockComment (before body code : Text) :
    SameEnd ((blockComment body).reverse ++ before) (' ' :: before) code := by
  rw [reverse_blockComment_append]
  exact ⟨rfl, .inl rfl⟩

theorem opensRegex_blockComment (before body : Text) :
    opensRegex ((blockComment body).reverse ++ before) = true := by
  rw [reverse_blockComment_append]
  rfl

/-- The code after a comment is read as after a space, unless it begins with a division. -/
theorem scanFrom_blockComment {before body code : Text}
    (operator : opensRegex before = true ∨ ¬ BeginsRegex code) :
    scanFrom ((blockComment body).reverse ++ before) code = scanFrom (' ' :: before) code := by
  have same := sameEnd_blockComment before body code
  rcases operator with expected | plain
  · have context : SameContext ((blockComment body).reverse ++ before) (' ' :: before) code := by
      refine ⟨?_, same.dots, same.run⟩
      rw [opensRegex_blockComment, opensRegex_cons, if_pos (by decide), expected]
    exact context.scanFrom_eq
  · exact same.scanFrom_eq plain

end Lexeme

/-- A block comment in the place of a space, where a scan is inside of nothing, is read as a comment
if and only if its first slash ends nothing: no slash alone stands right before it, and no slash
before it is completed to a regular expression. Then the code has the same substitution points,
unless an operand stands before the comment and what follows could be a regular expression. -/
theorem identifiers_blockComment {front after body : Text} (reached : Reached [] front (' ' :: after))
    (closed : ¬ ['*', '/'] <:+: body) :
    (Reached [] front (blockComment body ++ after) ↔
      (Lexeme.scan front).getLast? ≠ some (.symbol '/') ∧
      ∀ read later, Lexeme.scan front = read ++ .symbol '/' :: later →
        opensRegex (read.flatMap Lexeme.text).reverse = true →
        regexTail? false (later.flatMap Lexeme.text ++ (blockComment body ++ after)) = none) ∧
    (Reached [] front (blockComment body ++ after) →
      (opensRegex front.reverse = true ∨ ¬ BeginsRegex after) →
      (Fragment.parse (front ++ (blockComment body ++ after))).identifiers =
        (Fragment.parse (front ++ ' ' :: after)).identifiers) := by
  refine ⟨Lexeme.reached_blockComment_iff reached body, fun commented operator => ?_⟩
  have comment : Reads front.reverse (.comment (blockComment body)) after := .block closed after
  have space : Reads front.reverse (.symbol ' ') after :=
    .symbol (by decide) (by decide) (by decide) after
  have first : Lexeme.scan (front ++ (blockComment body ++ after)) = Lexeme.scan front ++
      .comment (blockComment body) ::
        Lexeme.scanFrom ((blockComment body).reverse ++ front.reverse) after := by
    have whole := commented.scanFrom_eq
    rw [List.append_nil] at whole
    exact whole.trans (congrArg _ comment.scanFrom_eq)
  have second : Lexeme.scan (front ++ ' ' :: after) = Lexeme.scan front ++
      .symbol ' ' :: Lexeme.scanFrom (' ' :: front.reverse) after := by
    have whole := reached.scanFrom_eq
    rw [List.append_nil] at whole
    exact whole.trans (congrArg _ space.scanFrom_eq)
  rw [Fragment.identifiers_parse, Fragment.identifiers_parse, first, second,
    Lexeme.scanFrom_blockComment operator, List.filterMap_append, List.filterMap_append]
  rfl

/-- A comment with a quote and a slash in it, between an operand and a division. -/
theorem identifiers_blockComment_quotient :
    Reached [] "_f(x)".toList (' ' :: " / _y".toList) ∧
      ¬ ['*', '/'] <:+: "'/ _c".toList ∧
      Reached [] "_f(x)".toList (blockComment "'/ _c".toList ++ " / _y".toList) ∧
      (Fragment.parse "_f(x)/*'/ _c*/ / _y".toList).identifiers = [['_', 'f'], ['_', 'y']] := by
  have reached : Reached [] "_f(x)".toList (' ' :: " / _y".toList) := by decide +kernel
  have closed : ¬ ['*', '/'] <:+: "'/ _c".toList := by decide
  obtain ⟨place, same⟩ := identifiers_blockComment reached closed
  have front : Lexeme.scan "_f(x)".toList =
      [.identifier ['_', 'f'], .symbol '(', .word ['x'], .symbol ')'] := by decide +kernel
  have commented : Reached [] "_f(x)".toList (blockComment "'/ _c".toList ++ " / _y".toList) := by
    rw [place, front]
    refine ⟨by decide, fun read later cut => ?_⟩
    have slash : Lexeme.symbol '/' ∈ read ++ .symbol '/' :: later := by simp
    exact absurd (cut ▸ slash) (by decide)
  have plain : ¬ BeginsRegex " / _y".toList := by
    rintro ⟨blanks, text, later, -, read⟩
    have after : Lexeme.scan " / _y".toList =
        [.symbol ' ', .symbol '/', .symbol ' ', .identifier ['_', 'y']] := by decide +kernel
    have regex : Lexeme.regex text ∈ blanks.map Lexeme.symbol ++ .regex text :: later := by simp
    rw [← read, after] at regex
    exact absurd regex (by simp)
  have spaced : (Fragment.parse ("_f(x)".toList ++ ' ' :: " / _y".toList)).identifiers =
      [['_', 'f'], ['_', 'y']] := by decide +kernel
  exact ⟨reached, closed, commented, (same commented (.inr plain)).trans spaced⟩

/-- Comments that hide what follows them. A comment after a slash makes it a line comment; its first
slash completes a regular expression where one is expected, also after an increment; and its last
slash makes a division after it look like one. -/
theorem not_identifiers_blockComment :
    (Reached [] "x /".toList (' ' :: "_y".toList) ∧
      (Fragment.parse "x / _y".toList).identifiers = [['_', 'y']] ∧
      Lexeme.scan ("x /".toList ++ (blockComment ['c'] ++ "_y".toList)) =
        [.word ['x'], .symbol ' ', .comment "//*c*/_y".toList] ∧
      (Fragment.parse "x //*c*/_y".toList).identifiers = []) ∧
    (Reached [] "i++ / _n".toList [' '] ∧
      (Fragment.parse "i++ / _n ".toList).identifiers = [['_', 'n']] ∧
      (Fragment.parse "i++ / _n/*c*/".toList).identifiers = []) ∧
    Reached [] ['x'] (' ' :: "/ _y / 2".toList) ∧
      (Fragment.parse "x / _y / 2".toList).identifiers = [['_', 'y']] ∧
      (Fragment.parse "x/*c*// _y / 2".toList).identifiers = [] := by
  decide +kernel

end ComponentPack.Code
