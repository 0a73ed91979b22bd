import Mathlib
import ComponentPack.Proofs.Code.Layout
import ComponentPack.Proofs.Render.Conservation
import ComponentPack.Proofs.Render.RoundTrip
import ComponentPack.Render.Reconcile

/-!
The block of constants is cut into statements before it is scanned. Each line that begins with a
keyword of a declaration begins a statement, whether the scanner of the whole block would read it as
code or not. Where it would, the statements have the substitution points of the block.
-/

set_option autoImplicit false

namespace ComponentPack.Render

open Code Code.Lexeme List Text
open Text (dropReturn dropReturns)

variable {before line code : Text}

/-- The scan reaches the beginning of every line but the first that begins a declaration: none of
these lines begins in a literal, a comment or a regular expression. -/
def LinesOutside (before code : Text) : Prop :=
  ∀ front back, code = front ++ '\n' :: back → Declaration.startsIn back = true →
    Reached before (front ++ ['\n']) back

instance (before code : Text) : Decidable (LinesOutside before code) :=
  decidable_of_iff _ forall_append_cons_iff.symm

theorem LinesOutside.of_reached {front rest : Text} (reached : Reached before front rest)
    (outside : LinesOutside before (front ++ rest)) :
    LinesOutside (front.reverse ++ before) rest := by
  rintro middle back rfl begins
  have later := outside (front ++ middle) back (append_assoc ..).symm begins
  rw [append_assoc] at later
  refine Reached.of_front ?_ later
  rwa [append_assoc]

theorem startsIn_mono (begins : Declaration.startsIn line = true) (initial : line <+: code) :
    Declaration.startsIn code = true := by
  obtain ⟨word, keyword, starts⟩ := Declaration.startsIn_iff.mp begins
  exact Declaration.startsIn_iff.mpr ⟨word, keyword, starts.trans initial⟩

/-- A declaration begins with a word. -/
theorem not_beginsRegex_of_startsIn (begins : Declaration.startsIn code = true) :
    ¬ BeginsRegex code := by
  obtain ⟨word, keyword, rest, rfl⟩ := Declaration.startsIn_iff.mp begins
  rintro ⟨blanks, text, later, -, read⟩
  rw [scan, append_assoc, scanFrom_name (isName_of_mem_keywords keyword).1
    (by rintro c ⟨⟩; decide), ofWord] at read
  cases blanks <;> split at read <;> cases read

/-- A declaration at the beginning of a line is read as if nothing stood before it. -/
theorem scanFrom_of_startsIn (begins : Declaration.startsIn code = true) (before : Text) :
    scanFrom ('\n' :: before) code = scan code := by
  have same : SameEnd ('\n' :: before) [] code := ⟨by rw [dotRun_cons]; rfl, .inl rfl⟩
  exact same.scanFrom_eq (not_beginsRegex_of_startsIn begins)

/-- The lines of a statement so far, and the part of the code that they are from. The part is read
as if nothing stood before it. -/
structure Pending (before part : Text) (lines : List Text) : Prop where
  filled : lines ≠ []
  ended : part.getLast? = some '\n'
  joined : dropReturns part = Text.joinLines lines ++ ['\n']
  fresh : ∀ rest, scanFrom before (Text.joinLines lines ++ rest) = scan (Text.joinLines lines ++ rest)

/-- A statement that has been read has the substitution points of its part of the code. -/
theorem identifiersFrom_statement {part feed : Text} {lines : List Text}
    (joined : dropReturns part = Text.joinLines lines ++ feed)
    (blank : ∀ c ∈ feed, Text.isBlank c = true)
    (fresh : scanFrom before (Text.joinLines lines ++ feed) = scan (Text.joinLines lines ++ feed))
    (stay : SlashesStay before part) :
    identifiersFrom before part = identifiersFrom [] (trim (Text.joinLines lines)) :=
  calc identifiersFrom before part
      = identifiersFrom before (Text.joinLines lines ++ feed) := by
        rw [← joined, stay.keepsPoints _ ⟨rfl, rfl, .inl rfl⟩]
    _ = identifiersFrom [] (Text.joinLines lines ++ feed) := by
        rw [identifiersFrom, fresh]
        rfl
    _ = identifiersFrom [] (trim (Text.joinLines lines)) := by
        rw [identifiersFrom_append_blanks blank, identifiersFrom_trim]

namespace Pending

variable {before part : Text} {lines : List Text}

theorem dropReturns_append (pending : Pending before part lines) (rest : Text) :
    dropReturns (part ++ rest) = Text.joinLines lines ++ '\n' :: dropReturns rest := by
  rw [Text.dropReturns_append (by simp [pending.ended]), pending.joined, append_assoc]
  rfl

/-- A line that begins a declaration begins the next statement. -/
theorem start (single : '\n' ∉ line)
    (fresh : ∀ rest, scanFrom before (dropReturn line ++ rest) = scan (dropReturn line ++ rest)) :
    Pending before (line ++ ['\n']) [dropReturn line] where
  filled := cons_ne_nil _ _
  ended := List.getLast?_concat
  joined := by rw [dropReturns_feed single, joinLines_singleton]
  fresh := by rwa [joinLines_singleton]

/-- Any other line belongs to the statement. -/
theorem extend (pending : Pending before part lines) (single : '\n' ∉ line) :
    Pending before (part ++ (line ++ ['\n'])) (lines ++ [dropReturn line]) where
  filled := by simp
  ended := by rw [← append_assoc, List.getLast?_concat]
  joined := by
    rw [pending.dropReturns_append, dropReturns_feed single, joinLines_concat pending.filled,
      append_assoc]
    rfl
  fresh rest := by
    rw [joinLines_concat pending.filled, append_assoc]
    exact pending.fresh _

/-- The next statement begins where the scan is outside of lexemes. -/
theorem reached (pending : Pending before part lines) {rest : Text}
    (outside : LinesOutside before (part ++ rest)) (begins : Declaration.startsIn rest = true) :
    Reached before part rest := by
  obtain ⟨front, rfl⟩ := List.getLast?_eq_some_iff.mp pending.ended
  exact outside front rest (by simp) begins

theorem scanFrom_eq (pending : Pending before part lines)
    (begins : Declaration.startsIn line = true) (rest : Text) :
    scanFrom (part.reverse ++ before) (line ++ rest) = scan (line ++ rest) := by
  obtain ⟨front, rfl⟩ := List.getLast?_eq_some_iff.mp pending.ended
  rw [reverse_append]
  exact scanFrom_of_startsIn (startsIn_mono begins (prefix_append line rest)) _

end Pending

/-- The substitution points of statements, given by their lines. -/
def statementIdentifiers (statements : List (List Text)) : List Text :=
  statements.flatMap fun lines => identifiersFrom [] (trim (Text.joinLines lines))

/-- Line by line: from the statement that is pending on, the statements have the substitution points
of the code. -/
theorem identifiersFrom_groupAfter {part : Text} {lines : List Text}
    (pending : Pending before part lines) (rest : Text)
    (outside : LinesOutside before (part ++ rest)) (stay : SlashesStay before (part ++ rest)) :
    identifiersFrom before (part ++ rest) =
      statementIdentifiers (Declaration.groupAfter lines (Text.lines rest)) := by
  have feed : ∀ c ∈ ['\n'], Text.isBlank c = true := forall_mem_singleton.mpr rfl
  have nothing : ∀ c ∈ ([] : Text), Text.isBlank c = true := forall_mem_nil _
  induction rest using line_induction generalizing before part lines with
  | nil =>
    rw [append_nil] at stay ⊢
    rw [Text.lines, Declaration.groupAfter, statementIdentifiers, flatMap_singleton]
    exact identifiersFrom_statement pending.joined feed (pending.fresh _) stay
  | last line filled single =>
    rw [lines_of_single filled single, Declaration.groupAfter]
    split
    · next begins =>
      have reached := pending.reached outside begins
      have first := identifiersFrom_statement pending.joined feed (pending.fresh _)
        (stay.of_front reached pending.ended)
      have joined : dropReturns line = Text.joinLines [line] ++ [] := by
        rw [dropReturns_of_single single, joinLines_singleton, append_nil]
      have fresh := pending.scanFrom_eq begins []
      rw [← joinLines_singleton line] at fresh
      have second := identifiersFrom_statement joined nothing fresh (stay.of_reached reached)
      rw [reached.identifiersFrom_eq, first, second, Declaration.groupAfter, statementIdentifiers,
        flatMap_cons, flatMap_singleton]
    · have joined : dropReturns (part ++ line) = Text.joinLines (lines ++ [line]) ++ [] := by
        rw [pending.dropReturns_append, dropReturns_of_single single,
          joinLines_concat pending.filled, append_nil]
      have fresh := pending.fresh ('\n' :: line)
      rw [← joinLines_concat pending.filled, ← append_nil (Text.joinLines _)] at fresh
      rw [identifiersFrom_statement joined nothing fresh stay, Declaration.groupAfter,
        statementIdentifiers, flatMap_singleton]
  | step line rest single ih =>
    have split : line ++ '\n' :: rest = line ++ ['\n'] ++ rest := by simp
    rw [lines_append_feed single, Declaration.groupAfter]
    split
    · next begins =>
      have starts : Declaration.startsIn (line ++ '\n' :: rest) = true :=
        startsIn_mono begins ((isPrefix_dropReturn line).trans (prefix_append ..))
      have reached := pending.reached outside starts
      have first := identifiersFrom_statement pending.joined feed (pending.fresh _)
        (stay.of_front reached pending.ended)
      have next := Pending.start single (pending.scanFrom_eq begins)
      have outside := outside.of_reached reached
      have stay := stay.of_reached reached
      rw [split] at outside stay
      rw [reached.identifiersFrom_eq, first, split, ih next outside stay]
      rfl
    · rw [split, ← append_assoc] at outside stay ⊢
      exact ih (pending.extend single) outside stay

theorem identifiersFrom_group {block : Text} (outside : LinesOutside [] block)
    (stay : SlashesStay [] block) :
    identifiersFrom [] block = statementIdentifiers (Declaration.group (Text.lines block)) := by
  induction block using line_induction with
  | nil => rw [identifiersFrom_nil]; rfl
  | last line filled single =>
    rw [lines_of_single filled single, Declaration.group, Declaration.groupAfter,
      statementIdentifiers, flatMap_singleton, joinLines_singleton, identifiersFrom_trim]
  | step line rest single =>
    have split : line ++ '\n' :: rest = line ++ ['\n'] ++ rest := by simp
    rw [lines_append_feed single, Declaration.group]
    rw [split] at outside stay ⊢
    exact identifiersFrom_groupAfter (.start single fun _ => rfl) rest outside stay

/-- The declarations of accepted code have the substitution points that the scanner finds in the
block of constants as a whole, if every line that begins a declaration begins outside of literals,
comments and regular expressions, and no slash of the block becomes the beginning of a regular
expression when the carriage returns before line feeds are dropped. -/
theorem identifiers_constants {code between tail : Text} {artifact : Artifact}
    (parsed : Artifact.parse code = .ok artifact) (divided : Divided code between tail)
    (outside : LinesOutside [] (Artifact.constantsBlock between))
    (stay : SlashesStay [] (Artifact.constantsBlock between)) :
    artifact.constants.flatMap (·.code.identifiers) =
      (Fragment.parse (Artifact.constantsBlock between)).identifiers := by
  rw [(divided.parts_of_parse parsed).1, Declaration.parseBlock, List.flatMap_map]
  simp only [Declaration.ofStatement, identifiers_parse_eq_identifiersFrom]
  rw [Declaration.flatMap_statements (identifiersFrom_nil [])]
  exact (identifiersFrom_group outside stay).symm

/-- Constants and an empty render function. -/
def withRender (constants : Text) : Text := constants ++ (renderMarker ++ "() \x7b\x7d")

theorem divided_withRender {constants : Text} (first : contains renderMarker constants = false)
    (unimported : contains importMarker constants = false) :
    Divided (withRender constants) constants "() \x7b\x7d" :=
  .bare _ _ (fun occurs => Bool.noConfusion (first.symm.trans (Text.contains_iff_infix.mpr occurs)))
    fun occurs => Bool.noConfusion (unimported.symm.trans (Text.contains_iff_infix.mpr occurs))

/-- Constants with a literal and a comment over several lines, and line ends of two kinds. -/
def wideConstants : Text :=
  "const _a = \x60\r\n  const _b\\\r\n\x60 /*\n const _c */\r\nlet d = _a / _e\n"

theorem identifiers_constants_wide :
    ∃ artifact, Artifact.parse (withRender wideConstants) = .ok artifact ∧
      artifact.constants.length = 2 ∧
      artifact.constants.flatMap (·.code.identifiers) = ["_a", "_a", "_e"].map String.toList := by
  have two : (Artifact.parse (withRender wideConstants)).toOption.map
      (·.constants.length) = some 2 := by decide +kernel
  cases parsed : Artifact.parse (withRender wideConstants) with
  | error cause => exact absurd (parsed ▸ two) (by simp [Except.toOption])
  | ok artifact =>
    have points := identifiers_constants parsed
      (divided_withRender (by decide +kernel) (by decide +kernel)) (by decide +kernel)
      (by decide +kernel)
    rw [parsed] at two
    exact ⟨artifact, rfl, Option.some.inj two, points.trans (by decide +kernel)⟩

/-- Constants of which the second is a literal with a line that begins with a keyword. -/
def literalConstants : Text := "const _b = 1\nconst a = \x60\nconst _b\n\x60\n"

/-- The literal is cut at the line, and the name in it is taken for the constant. -/
theorem not_identifiers_constants :
    Divided (withRender literalConstants) literalConstants "() \x7b\x7d".toList ∧
    (Fragment.parse (Artifact.constantsBlock literalConstants)).identifiers = ["_b".toList] ∧
    ∃ artifact,
      Artifact.parse (withRender literalConstants) = .ok artifact ∧
      artifact.constants.flatMap (·.code.identifiers) = ["_b".toList, "_b".toList] ∧
      (Runtime.reconcile {} artifact (.ofNames [])).constants =
        ["const r_itm_b = 1", "const a = \x60", "const r_itm_b\n\x60"].map String.toList := by
  refine ⟨divided_withRender (by decide +kernel) (by decide +kernel), by decide +kernel, ?_⟩
  have cut : (Artifact.parse (withRender literalConstants)).toOption.map
      (fun artifact => (artifact.constants.flatMap (·.code.identifiers),
        (Runtime.reconcile {} artifact (.ofNames [])).constants)) =
      some (["_b".toList, "_b".toList],
        ["const r_itm_b = 1", "const a = \x60", "const r_itm_b\n\x60"].map String.toList) := by
    decide +kernel
  cases parsed : Artifact.parse (withRender literalConstants) with
  | error cause => exact absurd (parsed ▸ cut) (by simp [Except.toOption])
  | ok artifact =>
    rw [parsed] at cut
    obtain ⟨points, texts⟩ := Prod.mk.inj (Option.some.inj cut)
    exact ⟨artifact, rfl, points, texts⟩

end ComponentPack.Render
