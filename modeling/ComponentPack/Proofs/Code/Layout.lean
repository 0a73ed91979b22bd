import Mathlib
import ComponentPack.Proofs.Code.Places
import ComponentPack.Proofs.Render.Names
import ComponentPack.Proofs.Text.Blanks

/-!
Layout of code that has no part in its substitution points: blanks around the code, and the carriage
returns of its line ends. The latter matter in one place: a backslash before a line end escapes the
carriage return, and without it the line feed, so that a regular expression may go on.
-/

set_option autoImplicit false

namespace ComponentPack.Code

open List Text

open Text (dropReturns dropReturns_append dropReturns_cons_eq dropReturns_cons_of_ne
  dropReturns_of_not_mem dropReturns_of_single)

/-! A line feed stands in a regular expression only after a backslash. -/

theorem ClassBody.head_ne {inside : Text} (closed : ClassBody inside) (rest : Text) :
    (inside ++ ']' :: rest).head? ≠ some '\n' := by
  cases closed with
  | done => simp
  | plain single line inner closed => simpa using line
  | escaped c closed => simp

theorem ClassBody.dropReturns_append {inside : Text} (closed : ClassBody inside) (rest : Text) :
    dropReturns (inside ++ ']' :: rest) = inside ++ ']' :: dropReturns rest := by
  induction closed with
  | done => exact dropReturns_cons_of_ne (by decide) rest
  | plain single line inner closed ih =>
    rw [cons_append, dropReturns_cons fun _ => closed.head_ne rest, ih, cons_append]
  | escaped c closed ih =>
    rw [cons_append, cons_append, dropReturns_cons_of_ne (by decide),
      dropReturns_cons fun _ => closed.head_ne rest, ih, cons_append, cons_append]

theorem RegexBody.head_ne {body : Text} (closed : RegexBody body) (rest : Text) :
    (body ++ '/' :: rest).head? ≠ some '\n' := by
  cases closed with
  | done => simp
  | plain single line inner outside closed => simpa using line
  | escaped c closed => simp
  | bracketed inside closed => simp

theorem RegexBody.dropReturns_append {body : Text} (closed : RegexBody body) (rest : Text) :
    dropReturns (body ++ '/' :: rest) = body ++ '/' :: dropReturns rest := by
  induction closed with
  | done => exact dropReturns_cons_of_ne (by decide) rest
  | plain single line inner outside closed ih =>
    rw [cons_append, dropReturns_cons fun _ => closed.head_ne rest, ih, cons_append]
  | escaped c closed ih =>
    rw [cons_append, cons_append, dropReturns_cons_of_ne (by decide),
      dropReturns_cons fun _ => closed.head_ne rest, ih, cons_append, cons_append]
  | bracketed inside closed ih =>
    rw [append_assoc, cons_append, cons_append, dropReturns_cons_of_ne (by decide),
      inside.dropReturns_append, ih]
    simp only [cons_append, append_assoc]

namespace Lexeme

variable {before rest front other : Text} {lexeme : Lexeme} {quote : Char}

/-- The substitution points of code that follows other code, which is given backwards. -/
def identifiersFrom (before code : Text) : List Text := (scanFrom before code).filterMap identifier?

theorem identifiersFrom_nil (before : Text) : identifiersFrom before [] = [] := by
  rw [identifiersFrom, scanFrom, filterMap_nil]

theorem Reads.identifiersFrom_eq (reads : Reads before lexeme rest) :
    identifiersFrom before (lexeme.text ++ rest) =
      lexeme.identifier?.toList ++ identifiersFrom (lexeme.text.reverse ++ before) rest := by
  rw [identifiersFrom, reads.scanFrom_eq, filterMap_cons]
  cases lexeme.identifier? <;> rfl

theorem Reached.identifiersFrom_eq (reached : Reached before front rest) :
    identifiersFrom before (front ++ rest) =
      identifiersFrom before front ++ identifiersFrom (front.reverse ++ before) rest := by
  rw [identifiersFrom, reached.scanFrom_eq, filterMap_append]
  rfl

theorem identifiers_parse_eq_identifiersFrom (code : Text) :
    (Fragment.parse code).identifiers = identifiersFrom [] code :=
  Fragment.identifiers_parse code

/-- A slash that stands for itself also does so without the carriage returns before line feeds. -/
def SlashesStay (before code : Text) : Prop :=
  ∀ read later, scanFrom before code = read ++ .symbol '/' :: later →
    opensRegex ((read.flatMap text).reverse ++ before) = true →
      regexTail? false (dropReturns (later.flatMap text)) = none

theorem forall_append_cons_iff {α : Type} {list : List α} {x : α} {P : List α → List α → Prop} :
    (∀ front back, list = front ++ x :: back → P front back) ↔
      ∀ n < list.length, list[n]? = some x → P (list.take n) (list.drop (n + 1)) := by
  constructor
  · intro each n inside found
    refine each _ _ ?_
    rw [← Option.some.inj ((getElem?_eq_getElem inside).symm.trans found),
      getElem_cons_drop, take_append_drop]
  · rintro each front back rfl
    have here := each front.length (by simp) (by simp)
    simpa using here

instance (before code : Text) : Decidable (SlashesStay before code) :=
  decidable_of_iff _ forall_append_cons_iff.symm

theorem SlashesStay.step (reads : Reads before lexeme rest)
    (stay : SlashesStay before (lexeme.text ++ rest)) :
    SlashesStay (lexeme.text.reverse ++ before) rest := by
  intro read later cut expected
  refine stay (lexeme :: read) later ?_ ?_
  · rw [reads.scanFrom_eq, cut, cons_append]
  · rwa [flatMap_cons, reverse_append, append_assoc]

theorem SlashesStay.of_reached (reached : Reached before front rest)
    (stay : SlashesStay before (front ++ rest)) : SlashesStay (front.reverse ++ before) rest := by
  intro read later cut expected
  refine stay (scanFrom before front ++ read) later ?_ ?_
  · rw [reached.scanFrom_eq, cut, append_assoc]
  · rwa [flatMap_append, flatMap_text_scanFrom, reverse_append, append_assoc]

/-- The slashes of the code before a line stay, whatever the line is. -/
theorem SlashesStay.of_front (reached : Reached before front rest)
    (ended : front.getLast? = some '\n') (stay : SlashesStay before (front ++ rest)) :
    SlashesStay before front := by
  intro read later cut expected
  have whole := stay read (later ++ scanFrom (front.reverse ++ before) rest)
    (by rw [reached.scanFrom_eq, cut, append_assoc, cons_append]) expected
  have last : (later.flatMap text).getLast? ≠ some '\r' := by
    have spelled := flatMap_text_scanFrom before front
    rw [cut, flatMap_append, flatMap_cons, ← append_assoc] at spelled
    intro returns
    rw [← spelled, getLast?_append, returns] at ended
    cases ended
  rw [flatMap_append, dropReturns_append (absurd · last)] at whole
  exact regexTail?_eq_none_of_append whole

/-- What is known of a place says all that the scanner looks back for, if the last character is a
mark. -/
theorem sameContext_cons_of_mark {c : Char} (visible : isAsciiBlank c = false)
    (outside : isWordChar c = false) (dot : c ≠ '.') (before other code : Text) :
    SameContext (c :: before) (c :: other) code := by
  refine ⟨?_, ?_, .inl ?_⟩
  · rw [opensRegex_cons, opensRegex_cons, visible, outside]
    rfl
  · rw [dotRun_cons, dotRun_cons, if_neg dot, if_neg dot]
  · rw [takeWhile_cons, takeWhile_cons, outside]
    rfl

/-- Before a line feed it matters of the text before only whether a regular expression may follow. -/
theorem scanFrom_feed (same : opensRegex before = opensRegex other) (rest : Text) :
    scanFrom before ('\n' :: rest) = scanFrom other ('\n' :: rest) := by
  have feed (front : Text) :
      scanFrom front ('\n' :: rest) = .symbol '\n' :: scanFrom ('\n' :: front) rest :=
    (Reads.symbol (by decide) (by decide) (by decide) rest :
      Reads front (.symbol '\n') rest).scanFrom_eq
  have after : SameContext ('\n' :: before) ('\n' :: other) rest := by
    refine ⟨?_, ?_, .inl ?_⟩
    · rw [opensRegex_cons, opensRegex_cons, same]
      rfl
    · rw [dotRun_cons, dotRun_cons]
      rfl
    · rfl
  rw [feed, feed, after.scanFrom_eq]

theorem head?_literalTail (quote : Char) (text : Text) :
    (literalTail quote text).1.head? = text.head? := by
  fun_cases literalTail quote text <;> rfl

/-- A literal ends at the same quote without carriage returns. -/
theorem literalTail_dropReturns (opens : isQuote quote = true) (text : Text) :
    literalTail quote (dropReturns text) =
      (dropReturns (literalTail quote text).1, dropReturns (literalTail quote text).2) := by
  have apart := of_isQuote (fun c => c != '\r' && c != '\n' && c != '\\') (by decide) opens
  simp only [Bool.and_eq_true, bne_iff_ne] at apart
  obtain ⟨⟨returns, feed⟩, single⟩ := apart
  fun_induction literalTail quote text with
  | case1 => rfl
  | case2 rest =>
    rw [dropReturns_cons_of_ne returns, literalTail_quote, dropReturns_cons_of_ne returns]
    rfl
  | case3 inner => rw [dropReturns_cons_of_ne (by decide), dropReturns, literalTail, if_neg inner]; rfl
  | case4 c rest span after tail inner ih =>
    rw [tail] at ih
    have first : span.head? = rest.head? := by
      have := head?_literalTail quote rest
      rwa [tail] at this
    have backslash := @dropReturns_cons_of_ne '\\' (by decide)
    rw [backslash, backslash, dropReturns_cons_eq c rest, dropReturns_cons_eq c span, first]
    split
    · next pair =>
      -- The backslash escapes the line feed instead of the carriage return.
      obtain ⟨rest, rfl⟩ := head?_eq_some_iff.mp pair.2
      rw [dropReturns_cons_of_ne (by decide), literalTail_plain (Ne.symm feed) (by decide)] at ih
      rw [dropReturns_cons_of_ne (by decide), literalTail_escape single, ← (Prod.mk.inj ih).1,
        ← (Prod.mk.inj ih).2]
    · rw [literalTail_escape single, ih]
  | case5 c rest inner escape span after tail ih =>
    rw [tail] at ih
    have first : span.head? = rest.head? := by
      have := head?_literalTail quote rest
      rwa [tail] at this
    rw [dropReturns_cons_eq, dropReturns_cons_eq c span, first]
    split
    · exact ih
    · rw [literalTail_plain inner escape, ih]

theorem return_not_mem {word : Text} (chars : ∀ c ∈ word, isWordChar c = true) : '\r' ∉ word :=
  fun member => absurd (chars _ member) (by decide)

theorem dropReturns_word_append {word : Text} (chars : ∀ c ∈ word, isWordChar c = true)
    (rest : Text) : dropReturns (word ++ rest) = word ++ dropReturns rest := by
  have absent := return_not_mem chars
  rw [dropReturns_append, dropReturns_of_not_mem absent]
  exact fun last => absurd (mem_of_getLast? last) absent

theorem reads_quoted_dropReturns {span : Text} (opens : isQuote quote = true)
    (tail : literalTail quote (span ++ rest) = (span, rest)) (other : Text) :
    Reads other (.quoted (quote :: dropReturns span)) (dropReturns rest) ∧
      dropReturns (quote :: span ++ rest) = quote :: dropReturns span ++ dropReturns rest := by
  have returns : quote ≠ '\r' := by
    rintro rfl
    exact absurd opens (by decide)
  have short := literalTail_dropReturns opens (span ++ rest)
  rw [tail] at short
  have read := reads_next other quote (dropReturns (span ++ rest))
  have whole := literalTail_append quote (dropReturns (span ++ rest))
  rw [next_quote opens, short] at read
  rw [short] at whole
  refine ⟨read, ?_⟩
  rw [cons_append, dropReturns_cons_of_ne returns, ← whole]
  rfl

/-- The substitution points stay if a lexeme is read as another one that is as little of a
substitution point, and those of the code after it stay. -/
theorem Reads.identifiersFrom_copy (reads : Reads before lexeme rest) (copy : Lexeme)
    (copied : Reads other copy (dropReturns rest))
    (whole : dropReturns (lexeme.text ++ rest) = copy.text ++ dropReturns rest)
    (point : copy.identifier? = lexeme.identifier?)
    (follows : identifiersFrom (copy.text.reverse ++ other) (dropReturns rest) =
      identifiersFrom (lexeme.text.reverse ++ before) rest) :
    identifiersFrom other (dropReturns (lexeme.text ++ rest)) =
      identifiersFrom before (lexeme.text ++ rest) := by
  rw [whole, copied.identifiersFrom_eq, reads.identifiersFrom_eq, point, follows]

/-- Without its carriage returns code has the same substitution points, after every text that looks
like the one before it. -/
def KeepsPoints (before code : Text) : Prop :=
  ∀ other, SameContext before other code →
    identifiersFrom other (dropReturns code) = identifiersFrom before code

theorem keepsPoints_literal {body : Text} (opens : isQuote quote = true)
    (closed : LiteralBody quote body)
    (later : KeepsPoints ((quote :: (body ++ [quote])).reverse ++ before) rest) :
    KeepsPoints before (quote :: (body ++ [quote]) ++ rest) := by
  intro other same
  have apart := of_isQuote (fun c => c != '\r' && c != '\n' && c != '\\' && c != '.' &&
    !isAsciiBlank c && !isWordChar c) (by decide) opens
  simp only [Bool.and_eq_true, bne_iff_ne, Bool.not_eq_eq_eq_not, Bool.not_true] at apart
  obtain ⟨⟨⟨⟨⟨returns, feed⟩, single⟩, dot⟩, visible⟩, outside⟩ := apart
  have tail : literalTail quote (body ++ [quote] ++ rest) = (body ++ [quote], rest) := by
    rw [append_assoc, singleton_append, literalTail_body single closed]
  have quotes : dropReturns (body ++ [quote]) = dropReturns body ++ [quote] := by
    rw [dropReturns_append (fun _ => by simpa using feed), dropReturns_cons_of_ne returns]
    rfl
  obtain ⟨copied, whole⟩ := reads_quoted_dropReturns opens tail other
  refine (Reads.literal opens closed rest).identifiersFrom_copy _ copied whole rfl (later _ ?_)
  rw [quotes]
  have mark := sameContext_cons_of_mark visible outside dot ((quote :: body).reverse ++ before)
    ((quote :: dropReturns body).reverse ++ other) rest
  simpa [text] using mark

theorem keepsPoints_block {body : Text} (closed : ¬ ['*', '/'] <:+: body)
    (later : KeepsPoints (('/' :: '*' :: (body ++ ['*', '/'])).reverse ++ before) rest) :
    KeepsPoints before ('/' :: '*' :: (body ++ ['*', '/']) ++ rest) := by
  intro other same
  have closed' : ¬ ['*', '/'] <:+: dropReturns body :=
    mt (infix_of_infix_dropReturns (by decide)) closed
  refine (Reads.block closed rest).identifiersFrom_copy _ (.block closed' _) ?_ rfl (later _ ?_)
  · have slash := @dropReturns_cons_of_ne '/' (by decide)
    have star := @dropReturns_cons_of_ne '*' (by decide)
    rw [text, cons_append, cons_append, append_assoc, slash, star,
      dropReturns_append (by simp), cons_append, star, cons_append, slash]
    simp [text]
  · have mark := sameContext_cons_of_mark (c := '/') (by decide) (by decide) (by decide)
      (('/' :: '*' :: (body ++ ['*'])).reverse ++ before)
      (('/' :: '*' :: (dropReturns body ++ ['*'])).reverse ++ other) rest
    simpa [text] using mark

/-- A comment on a line loses a carriage return at its end. That is a blank, so that it does not
matter after the line feed. -/
theorem keepsPoints_line {start : Text} (inside : '\n' ∉ start)
    (later : KeepsPoints (('/' :: '/' :: (start ++ ['\r'])).reverse ++ before) ('\n' :: rest)) :
    KeepsPoints before ('/' :: '/' :: (start ++ ['\r']) ++ '\n' :: rest) := by
  intro other same
  have reads : Reads before (.comment ('/' :: '/' :: (start ++ ['\r']))) ('\n' :: rest) :=
    .line (by simpa using inside) (by simp)
  refine reads.identifiersFrom_copy (.comment ('/' :: '/' :: start))
    (.line inside (head?_dropReturns (by simp) rfl)) ?_ rfl ?_
  · have line : '\n' ∉ '/' :: '/' :: start := by simpa using inside
    have whole : text (.comment ('/' :: '/' :: (start ++ ['\r']))) ++ '\n' :: rest =
        '/' :: '/' :: start ++ '\r' :: '\n' :: rest := by simp [text]
    rw [whole, dropReturns_append (by simp), dropReturns_of_single line, dropReturns,
      dropReturns_cons_of_ne (by decide)]
    rfl
  · rw [text, text, ← later _ (same.append (by simp)), dropReturns_cons_of_ne (by decide),
      identifiersFrom, identifiersFrom]
    refine congrArg (List.filterMap identifier?) (scanFrom_feed ?_ _)
    simp [opensRegex_cons '\r', isAsciiBlank]

/-- A carriage return before a line feed is a lexeme of its own, and it goes. -/
theorem keepsPoints_return (later : KeepsPoints ('\r' :: before) ('\n' :: rest)) :
    KeepsPoints before ('\r' :: '\n' :: rest) := by
  intro other same
  have reads : Reads before (.symbol '\r') ('\n' :: rest) :=
    .symbol (by decide) (by decide) (by decide) _
  have feed : scanFrom other (dropReturns ('\n' :: rest)) =
      scanFrom ('\r' :: other) (dropReturns ('\n' :: rest)) := by
    rw [dropReturns_cons_of_ne (by decide)]
    exact scanFrom_feed (by rw [opensRegex_cons]; rfl) _
  have points := reads.identifiersFrom_eq
  rw [text, singleton_append] at points
  rw [points, dropReturns_cons_eq, if_pos ⟨rfl, rfl⟩, identifiersFrom, feed]
  exact later _ (same.cons _)

/-- One lexeme. It stays what it is, or a literal or a comment gets shorter, or it is a carriage
return that goes. -/
theorem Reads.keepsPoints (reads : Reads before lexeme rest)
    (stay : SlashesStay before (lexeme.text ++ rest))
    (later : KeepsPoints (lexeme.text.reverse ++ before) rest) :
    KeepsPoints before (lexeme.text ++ rest) := by
  intro other same
  have kept (copied : Reads other lexeme (dropReturns rest))
      (whole : dropReturns (lexeme.text ++ rest) = lexeme.text ++ dropReturns rest) :=
    reads.identifiersFrom_copy _ copied whole rfl (later _ (same.append reads.text_ne_nil))
  have points := @identifiersFrom_copy _ _ other _ reads
  cases reads with
  | literal opens closed rest => exact keepsPoints_literal opens closed later other same
  | @openLiteral quote body opens endless =>
    obtain ⟨copied, whole⟩ := reads_quoted_dropReturns opens (by rwa [append_nil]) other
    exact points _ copied whole rfl (by rw [dropReturns, identifiersFrom_nil, identifiersFrom_nil])
  | @line body rest inside stops =>
    by_cases pair : ('/' :: '/' :: body).getLast? = some '\r' ∧ rest.head? = some '\n'
    · obtain ⟨last, first⟩ := pair
      obtain ⟨rest, rfl⟩ := head?_eq_some_iff.mp first
      obtain ⟨start, rfl⟩ : ∃ start, body = start ++ ['\r'] := by
        rw [getLast?_cons_cons, getLast?_cons] at last
        cases body using List.reverseRecOn with
        | nil => exact absurd last (by decide)
        | append_singleton start c => exact ⟨start, by simpa using last⟩
      exact keepsPoints_line (fun member => inside (mem_append_left _ member)) later other same
    · refine kept (.line inside (head?_dropReturns stops rfl)) ?_
      have single : '\n' ∉ '/' :: '/' :: body := by simpa using inside
      rw [text, dropReturns_append fun last first => pair ⟨last, first⟩,
        dropReturns_of_single single]
  | block closed rest => exact keepsPoints_block closed later other same
  | @openBlock body endless =>
    have endless' : ¬ ['*', '/'] <:+: dropReturns body :=
      mt (infix_of_infix_dropReturns (by decide)) endless
    refine points (.comment ('/' :: '*' :: dropReturns body)) (.openBlock endless') ?_ rfl ?_
    · rw [text, append_nil, dropReturns_cons_of_ne (by decide),
        dropReturns_cons_of_ne (by decide), text, dropReturns, append_nil]
    · rw [dropReturns, identifiersFrom_nil, identifiersFrom_nil]
  | @regex first others flags rest expected closed block chars stops =>
    refine kept (.regex (same.regex ▸ expected) closed block chars
      (head?_dropReturns stops (by decide))) ?_
    have flagged : first :: others ++ '/' :: flags ++ rest =
        first :: others ++ '/' :: (flags ++ rest) := by simp
    rw [text, cons_append, dropReturns_cons_of_ne (by decide), flagged,
      closed.dropReturns_append, dropReturns_word_append chars]
    simp
  | @slash rest apart bare =>
    refine kept (.slash (head?_dropReturns apart (by decide)) fun expected => ?_)
      (dropReturns_cons_of_ne (by decide) rest)
    have read : Reads before (.symbol '/') rest := .slash apart bare
    have missing := stay [] _ read.scanFrom_eq (same.regex.trans expected)
    rwa [flatMap_text_scanFrom] at missing
  | number begins chars stops =>
    exact kept (.number begins chars (head?_dropReturns stops (by decide))) (dropReturns_word_append
      (forall_mem_cons.mpr ⟨isWordChar_of_isDigit begins, chars⟩) _)
  | @word first others rest lexeme begins chars stops form =>
    refine kept (.word begins chars (head?_dropReturns stops (by decide))
      (form.trans (same.ofWord_eq _))) ?_
    rw [form, text_ofWord]
    exact dropReturns_word_append
      (forall_mem_cons.mpr ⟨isWordChar_of_isWordStart begins, chars⟩) rest
  | @symbol c inert slash outside rest =>
    have whole := dropReturns_cons_eq c rest
    split at whole
    · next pair =>
      obtain ⟨rfl, first⟩ := pair
      obtain ⟨rest, rfl⟩ := head?_eq_some_iff.mp first
      exact keepsPoints_return later other same
    · exact kept (.symbol inert slash outside _) whole

/-- Without the carriage returns before its line feeds code has the same substitution points, if no
slash becomes the beginning of a regular expression. -/
theorem SlashesStay.keepsPoints {code : Text} (stay : SlashesStay before code) :
    KeepsPoints before code := by
  induction before, code using scan_induction with
  | nil before =>
    intro other same
    rw [dropReturns, identifiersFrom_nil, identifiersFrom_nil]
  | step before lexeme rest reads ih => exact reads.keepsPoints stay (ih (stay.step reads))

section Around

variable {blanks : Text} (blank : ∀ c ∈ blanks, isBlank c = true)

include blank

theorem identifiersFrom_blanks (before rest : Text) :
    identifiersFrom before (blanks ++ rest) = identifiersFrom (blanks.reverse ++ before) rest := by
  have symbols : (blanks.map symbol).filterMap identifier? = [] := by simp [identifier?]
  rw [identifiersFrom, Render.scanFrom_blanks blank, filterMap_append, symbols]
  rfl

theorem identifiersFrom_of_blank (before : Text) : identifiersFrom before blanks = [] := by
  rw [← append_nil blanks, identifiersFrom_blanks blank, identifiersFrom_nil]

theorem slash_not_mem_blanks : '/' ∉ blanks := fun member =>
  absurd (blank _ member) (by decide)

theorem head?_append_blanks {P : Char → Prop} (first : ∀ c ∈ rest.head?, P c)
    (each : ∀ c, isBlank c = true → P c) : ∀ c ∈ (rest ++ blanks).head?, P c := by
  cases rest with
  | nil => exact fun c member => each c (blank c (mem_of_mem_head? member))
  | cons d rest => exact first

/-- No regular expression ends among blanks. -/
theorem regexTail?_append_blanks {inClass : Bool} {text : Text}
    (missing : regexTail? inClass text = none) : regexTail? inClass (text ++ blanks) = none := by
  have alone (inClass : Bool) {text : Text} (absent : '/' ∉ text) :
      regexTail? inClass text = none := by
    cases found : regexTail? inClass text with
    | none => rfl
    | some parts =>
      obtain ⟨body, flags, -, span, -⟩ := regexTail?_sound found
      refine absurd ?_ absent
      rw [eq_append_of_regexTail? found, span]
      simp
  have absent := slash_not_mem_blanks blank
  fun_induction regexTail? inClass text with
  | case1 inClass => exact alone inClass absent
  | case2 inClass =>
    cases blanks with
    | nil => rfl
    | cons c blanks =>
      rw [singleton_append, regexTail?_escape, alone inClass fun member =>
        absent (mem_cons_of_mem c member)]
      rfl
  | case3 inClass c tail ih =>
    rw [cons_append, cons_append, regexTail?_escape, ih (Option.map_eq_none_iff.mp missing)]
    rfl
  | case4 inClass tail => rw [cons_append, regexTail?.eq_def]; rfl
  | case5 inClass c tail _ _ closes => exact absurd missing (by simp)
  | case6 inClass c tail single line open_ ih =>
    have inner : c = '/' → inClass = true := fun slash => by simpa [slash] using open_
    rw [cons_append, regexTail?_plain single line inner, ih (Option.map_eq_none_iff.mp missing)]
    rfl

omit blank in
/-- A literal that takes the whole text takes more only of what follows. -/
theorem literalTail_append_of_endless {text : Text} (endless : literalTail quote text = (text, []))
    (more : Text) : (literalTail quote (text ++ more)).2 <:+ more := by
  have left (text : Text) : (literalTail quote text).2 <:+ text := ⟨_, literalTail_append quote text⟩
  fun_induction literalTail quote text with
  | case1 => exact left more
  | case2 rest =>
    cases endless
    rw [singleton_append, literalTail_quote]
  | case3 inner =>
    cases more with
    | nil =>
      rw [append_nil, literalTail, if_neg inner]
      exact suffix_rfl
    | cons c more =>
      rw [singleton_append, literalTail_escape (Ne.symm inner)]
      exact (left more).trans (suffix_cons c more)
  | case4 c rest span after tail inner ih =>
    cases endless
    rw [cons_append, cons_append, literalTail_escape (Ne.symm inner)]
    exact ih tail
  | case5 c rest inner escape span after tail ih =>
    cases endless
    rw [cons_append, literalTail_plain inner escape]
    exact ih tail

theorem not_infix_append_blanks {body : Text} (absent : ¬ ['*', '/'] <:+: body) :
    ¬ ['*', '/'] <:+: body ++ blanks := by
  have slash := slash_not_mem_blanks blank
  intro occurs
  rcases infix_append_iff_ne_nil.mp occurs with inside | inside | ⟨l, r, -, hr, equal, -, pre⟩
  · exact absent inside
  · exact slash (inside.subset (by simp))
  · have last : (l ++ r).getLast? = some '/' := equal ▸ rfl
    rw [getLast?_append_of_ne_nil l hr] at last
    exact slash (pre.subset (mem_of_getLast? last))

/-- Blanks after code add no substitution point and take none away. -/
theorem identifiersFrom_append_blanks (before code : Text) :
    identifiersFrom before (code ++ blanks) = identifiersFrom before code := by
  induction before, code using scan_induction with
  | nil before => rw [nil_append, identifiersFrom_of_blank blank, identifiersFrom_nil]
  | step before lexeme rest reads ih =>
    have kept (copied : Reads before lexeme (rest ++ blanks)) :
        identifiersFrom before (lexeme.text ++ rest ++ blanks) =
          identifiersFrom before (lexeme.text ++ rest) := by
      rw [append_assoc, copied.identifiersFrom_eq, reads.identifiersFrom_eq, ih]
    have inert := fun c blank => @Render.inert_of_isBlank c blank
    have stopped (stops : ∀ c ∈ rest.head?, isWordChar c = false) :
        ∀ c ∈ (rest ++ blanks).head?, isWordChar c = false :=
      head?_append_blanks blank stops fun c blank => (inert c blank).2.2
    cases reads with
    | literal opens closed => exact kept (.literal opens closed _)
    | @openLiteral quote body opens endless =>
      have read : Reads before (.quoted (quote :: body)) [] := .openLiteral opens endless
      have left := literalTail_append_of_endless endless blanks
      have after := identifiersFrom_of_blank fun c member => blank c (left.subset member)
      rw [read.identifiersFrom_eq, identifiersFrom_nil, append_nil, text, cons_append,
        identifiersFrom, scanFrom_cons, next_quote opens, filterMap_cons]
      exact after _
    | @line body rest inside stops =>
      cases rest with
      | cons c rest => exact kept (.line inside stops)
      | nil =>
        have read : Reads before (.comment ('/' :: '/' :: body)) [] := .line inside stops
        have copied : Reads before
            (.comment ('/' :: '/' :: (body ++ blanks.takeWhile fun c => c ≠ '\n')))
            (blanks.dropWhile fun c => c ≠ '\n') := by
          refine .line (fun member => ?_) fun c first => ?_
          · rcases mem_append.mp member with member | member
            · exact inside member
            · simpa using mem_takeWhile_imp member
          · simpa using stops_dropWhile blanks c first
        have after := @identifiersFrom_of_blank (blanks.dropWhile fun c => c ≠ '\n')
          fun c member => blank c (dropWhile_subset _ member)
        have whole := copied.identifiersFrom_eq
        rw [after, text, cons_append, cons_append, append_assoc,
          takeWhile_append_dropWhile] at whole
        rw [read.identifiersFrom_eq, identifiersFrom_nil, append_nil]
        exact whole
    | block closed => exact kept (.block closed _)
    | @openBlock body endless =>
      have read : Reads before (.comment ('/' :: '*' :: body)) [] := .openBlock endless
      have copied : Reads before (.comment ('/' :: '*' :: (body ++ blanks))) [] :=
        .openBlock (not_infix_append_blanks blank endless)
      have whole := copied.identifiersFrom_eq
      rw [append_nil, identifiersFrom_nil] at whole
      rw [read.identifiersFrom_eq, identifiersFrom_nil, append_nil]
      exact whole
    | regex expected closed block chars stops =>
      exact kept (.regex expected closed block chars (stopped stops))
    | slash apart bare =>
      refine kept (.slash (head?_append_blanks blank apart fun c blank => ⟨(inert c blank).2.1, ?_⟩)
        fun expected => regexTail?_append_blanks blank (bare expected))
      rintro rfl
      exact absurd blank (by decide)
    | number begins chars stops => exact kept (.number begins chars (stopped stops))
    | word begins chars stops form => exact kept (.word begins chars (stopped stops) form)
    | symbol inert slash outside => exact kept (.symbol inert slash outside _)

theorem opensRegex_of_isBlank : opensRegex blanks = true := by
  induction blanks with
  | nil => rfl
  | cons c blanks ih =>
    obtain ⟨first, blank⟩ := forall_mem_cons.mp blank
    obtain ⟨-, -, outside⟩ := Render.inert_of_isBlank first
    have apart : c ∉ [')', ']', '"', '\'', '\x60'] := fun member => by
      have visible := List.all_eq_true.mp
        (by decide : [')', ']', '"', '\'', '\x60'].all (!isBlank ·) = true) c member
      simp [first] at visible
    rw [opensRegex_cons, ih blank, outside]
    split
    · rfl
    · simpa [and_assoc] using apart

/-- Blanks before code matter as little. -/
theorem identifiersFrom_blanks_append (code : Text) :
    identifiersFrom [] (blanks ++ code) = identifiersFrom [] code := by
  have reversed : ∀ c ∈ blanks.reverse, isBlank c = true := fun c member =>
    blank c (mem_reverse.mp member)
  have same : SameContext blanks.reverse [] code := by
    refine ⟨opensRegex_of_isBlank reversed, ?_, .inl ?_⟩
    · cases equal : blanks.reverse with
      | nil => rfl
      | cons c others =>
        have dot : c ≠ '.' := by
          rintro rfl
          exact absurd (reversed '.' (equal ▸ mem_cons_self)) (by decide)
        rw [dotRun_cons, if_neg dot]
        rfl
    · refine takeWhile_eq_nil fun c first => ?_
      exact (Render.inert_of_isBlank (reversed c (mem_of_mem_head? first))).2.2
  rw [identifiersFrom_blanks blank, append_nil, identifiersFrom, same.scanFrom_eq]
  rfl

end Around

/-- Code has its substitution points in the text that is left after trimming. -/
theorem identifiersFrom_trim (code : Text) :
    identifiersFrom [] (trim code) = identifiersFrom [] code := by
  obtain ⟨front, back, split, before, after, -⟩ := exists_trim code
  conv_rhs => rw [split]
  rw [identifiersFrom_blanks_append before, identifiersFrom_append_blanks after]

end Lexeme

end ComponentPack.Code
