import Mathlib
import ComponentPack.Proofs.Code.Rewriting

/-!
Places in code. A scan reaches a place if it is inside of no lexeme there; what stands before the
place is then read as if nothing followed, and what follows is read after it. How much it matters
what stands before: the scanner asks for the word and the dots right before a place and for the last
character that is no blank, and the latter only where a slash comes first.
-/

set_option autoImplicit false

namespace ComponentPack.Code.Lexeme

open List Text Option

variable {rest before : Text} {c : Char} {lexeme : Lexeme}

/-- A regular expression that ends in a text ends there whatever follows the text. -/
theorem isSome_regexTail?_append {inClass : Bool} {text : Text}
    (found : (regexTail? inClass text).isSome = true) (rest : Text) :
    (regexTail? inClass (text ++ rest)).isSome = true := by
  fun_induction regexTail? inClass text with
  | case1 => exact absurd found (by simp)
  | case2 => exact absurd found (by simp)
  | case3 inClass c tail ih =>
    rw [isSome_map] at found
    rw [cons_append, cons_append, regexTail?_escape, isSome_map]
    exact ih found
  | case4 => exact absurd found (by simp)
  | case5 inClass c tail _ _ closes =>
    obtain ⟨rfl, outside⟩ := closes
    obtain rfl : inClass = false := by simpa using outside
    rw [cons_append, regexTail?_slash]
    rfl
  | case6 inClass c tail single line open_ ih =>
    rw [isSome_map] at found
    have inner : c = '/' → inClass = true := fun slash => by simpa [slash] using open_
    rw [cons_append, regexTail?_plain single line inner, isSome_map]
    exact ih found

theorem regexTail?_eq_none_of_append {inClass : Bool} {text : Text}
    (missing : regexTail? inClass (text ++ rest) = none) : regexTail? inClass text = none := by
  by_contra found
  have longer := isSome_regexTail?_append (isSome_iff_ne_none.mpr found) rest
  rw [missing] at longer
  exact Bool.noConfusion longer

theorem mem_head?_append {text : Text} (first : c ∈ text.head?) (rest : Text) :
    c ∈ (text ++ rest).head? := by
  obtain ⟨tail, rfl⟩ := List.head?_eq_some_iff.mp first
  rfl

/-- A lexeme also stands where the code ends earlier. -/
theorem Reads.of_append {text : Text} (reads : Reads before lexeme (text ++ rest)) :
    Reads before lexeme text := by
  generalize whole : text ++ rest = code at reads
  cases reads with
  | literal opens closed => exact .literal opens closed text
  | openLiteral opens endless =>
    obtain ⟨rfl, -⟩ := append_eq_nil_iff.mp whole
    exact .openLiteral opens endless
  | line inside stops =>
    subst whole
    exact .line inside fun c first => stops c (mem_head?_append first rest)
  | block closed => exact .block closed text
  | openBlock endless =>
    obtain ⟨rfl, -⟩ := append_eq_nil_iff.mp whole
    exact .openBlock endless
  | regex expected closed block chars stops =>
    subst whole
    exact .regex expected closed block chars fun c first => stops c (mem_head?_append first rest)
  | slash apart bare =>
    subst whole
    exact .slash (fun c first => apart c (mem_head?_append first rest)) fun expected =>
      regexTail?_eq_none_of_append (bare expected)
  | number begins chars stops =>
    subst whole
    exact .number begins chars fun c first => stops c (mem_head?_append first rest)
  | word begins chars stops form =>
    subst whole
    exact .word begins chars (fun c first => stops c (mem_head?_append first rest)) form
  | symbol inert slash outside => exact .symbol inert slash outside text

/-- Only a symbol begins with a blank. -/
theorem Reads.eq_symbol_of_blank (reads : Reads before lexeme rest)
    (blank : isAsciiBlank c = true) (first : lexeme.text.head? = some c) :
    lexeme = .symbol c := by
  have visible (inside : isWordChar c = true) : False := by
    rw [isAsciiBlank_of_isWordChar inside] at blank
    exact Bool.noConfusion blank
  have unquoted (quote : isQuote c = true) : False := by
    have other := of_isAsciiBlank (!isQuote ·) (by decide) blank
    simp [quote] at other
  cases reads with
  | literal opens | openLiteral opens =>
    cases first
    exact (unquoted opens).elim
  | line | block | openBlock | regex | slash =>
    cases first
    exact absurd blank (by decide)
  | number begins =>
    cases first
    exact (visible (isWordChar_of_isDigit begins)).elim
  | word begins chars stops form =>
    rw [form, text_ofWord] at first
    cases first
    exact (visible (isWordChar_of_isWordStart begins)).elim
  | symbol =>
    cases first
    rfl

/-- Every lexeme of a scan stands after those before it and before those after it. -/
theorem reads_of_scanFrom {code : Text} {front back : List Lexeme}
    (cut : scanFrom before code = front ++ lexeme :: back) :
    Reads ((front.flatMap text).reverse ++ before) lexeme (back.flatMap text) := by
  induction before, code using scan_induction generalizing front with
  | nil before => exact absurd cut (by simp [scanFrom])
  | step before first rest reads ih =>
    rw [reads.scanFrom_eq] at cut
    cases front with
    | nil =>
      obtain ⟨rfl, rfl⟩ := List.cons.inj cut
      rwa [flatMap_text_scanFrom]
    | cons other front =>
      obtain ⟨rfl, later⟩ := List.cons.inj cut
      have inside := ih later
      rwa [← append_assoc, ← reverse_append, ← flatMap_cons] at inside

/-- Lexemes that stand one after the other are what is read. -/
theorem scanFrom_append_of_reads {before rest : Text} {lexemes : List Lexeme}
    (each : ∀ front lexeme back, lexemes = front ++ lexeme :: back →
      Reads ((front.flatMap text).reverse ++ before) lexeme (back.flatMap text ++ rest)) :
    scanFrom before (lexemes.flatMap text ++ rest) =
      lexemes ++ scanFrom ((lexemes.flatMap text).reverse ++ before) rest := by
  induction lexemes generalizing before with
  | nil => rfl
  | cons lexeme lexemes ih =>
    have first : Reads before lexeme (lexemes.flatMap text ++ rest) := each [] lexeme lexemes rfl
    have later := @ih (lexeme.text.reverse ++ before) fun front other back cut => by
      have reads := each (lexeme :: front) other back (by rw [cut]; rfl)
      rwa [flatMap_cons, reverse_append, append_assoc] at reads
    rw [flatMap_cons, append_assoc, first.scanFrom_eq, later, reverse_append,
      append_assoc]
    rfl

/-- The scan of code that follows other code, which is given backwards, reaches the place after its
first part: it is in no literal, comment, regular expression, word or number there. -/
def Reached (before front rest : Text) : Prop :=
  ∃ read later, scanFrom before (front ++ rest) = read ++ later ∧ read.flatMap text = front

variable {before front rest : Text}

/-- A scan reaches the places before which every lexeme is read as if nothing followed. -/
theorem reached_iff_reads :
    Reached before front rest ↔ ∀ read lexeme later,
      scanFrom before front = read ++ lexeme :: later →
        Reads ((read.flatMap text).reverse ++ before) lexeme (later.flatMap text ++ rest) := by
  constructor
  · rintro ⟨lexemes, later, cut, rfl⟩
    have after : later.flatMap text = rest := by
      have whole := flatMap_text_scanFrom before (lexemes.flatMap text ++ rest)
      rwa [cut, flatMap_append, append_cancel_left_eq] at whole
    have each : ∀ read lexeme back, lexemes = read ++ lexeme :: back →
        Reads ((read.flatMap text).reverse ++ before) lexeme (back.flatMap text ++ rest) := by
      intro read lexeme back split
      have reads := reads_of_scanFrom (cut.trans (by rw [split, append_assoc]; rfl) :
        scanFrom before _ = read ++ lexeme :: (back ++ later))
      rwa [flatMap_append, after] at reads
    -- Without the rest the same lexemes are read.
    have alone := @scanFrom_append_of_reads before [] lexemes fun read lexeme back split => by
      rw [append_nil]
      exact (each read lexeme back split).of_append
    rw [append_nil, scanFrom, append_nil] at alone
    rw [alone]
    exact each
  · intro each
    have whole := scanFrom_append_of_reads each
    rw [flatMap_text_scanFrom] at whole
    exact ⟨_, _, whole, flatMap_text_scanFrom before front⟩

namespace Reached

theorem scanFrom_eq (reached : Reached before front rest) :
    scanFrom before (front ++ rest) =
      scanFrom before front ++ scanFrom (front.reverse ++ before) rest := by
  have whole := scanFrom_append_of_reads (reached_iff_reads.mp reached)
  rwa [flatMap_text_scanFrom] at whole

/-- A place is also reached where the code ends earlier. -/
theorem of_append {more : Text} (reached : Reached before front (rest ++ more)) :
    Reached before front rest := by
  refine reached_iff_reads.mpr fun read lexeme later cut => ?_
  have reads := reached_iff_reads.mp reached read lexeme later cut
  rw [← append_assoc] at reads
  exact reads.of_append

/-- From one place that is reached to the next one. -/
theorem of_front {middle : Text} (first : Reached before front (middle ++ rest))
    (second : Reached before (front ++ middle) rest) :
    Reached (front.reverse ++ before) middle rest := by
  have whole := second.scanFrom_eq
  rw [first.of_append.scanFrom_eq, append_assoc, append_assoc, first.scanFrom_eq,
    append_cancel_left_eq] at whole
  exact ⟨_, _, whole, flatMap_text_scanFrom _ middle⟩

end Reached

theorem reached_iff_scanFrom_eq :
    Reached before front rest ↔ scanFrom before (front ++ rest) =
      scanFrom before front ++ scanFrom (front.reverse ++ before) rest :=
  ⟨Reached.scanFrom_eq, fun cut => ⟨_, _, cut, flatMap_text_scanFrom before front⟩⟩

instance : Decidable (Reached before front rest) := decidable_of_iff _ reached_iff_scanFrom_eq.symm

theorem disguised_self (code : Text) : Disguised code code := by
  have copy := Disguised.nil.append code
  rwa [append_nil] at copy

/-- Texts before that look alike to the scanner give the same lexemes. -/
theorem SameContext.scanFrom_eq {other code : Text} (same : SameContext before other code) :
    scanFrom before code = scanFrom other code := by
  induction before, code using scan_induction generalizing other with
  | nil before => rw [scanFrom, scanFrom]
  | step before lexeme rest reads ih =>
    rw [reads.scanFrom_eq, (reads.disguise same (disguised_self rest)).scanFrom_eq,
      ih (same.append reads.text_ne_nil)]

/-- Two texts, given backwards, before the same code: they end with the same dots, and with the same
word unless it is over. -/
structure SameEnd (before other code : Text) : Prop where
  dots : min 3 (dotRun before) = min 3 (dotRun other)
  run : before.takeWhile isWordChar = other.takeWhile isWordChar ∨
    ∀ c ∈ code.head?, isWordChar c = false

/-- The code begins with a regular expression, blanks before it aside, where nothing stands before
it. -/
def BeginsRegex (code : Text) : Prop :=
  ∃ (blanks text : Text) (later : List Lexeme), (∀ c ∈ blanks, isAsciiBlank c = true) ∧
    scan code = blanks.map symbol ++ .regex text :: later

theorem sameContext_nil_of_blank (blank : isAsciiBlank c = true) (code : Text) :
    SameContext [c] [] code := by
  have dot : c ≠ '.' := by
    rintro rfl
    exact absurd blank (by decide)
  have outside : ¬ isWordChar c = true := fun inside => by
    rw [isAsciiBlank_of_isWordChar inside] at blank
    exact Bool.noConfusion blank
  refine ⟨?_, ?_, .inl ?_⟩
  · rw [opensRegex_cons, if_pos blank]
  · rw [dotRun_cons, if_neg dot]
    rfl
  · rw [takeWhile_cons_of_neg outside, takeWhile_nil]

theorem BeginsRegex.cons_blank {code : Text} (blank : isAsciiBlank c = true)
    (begins : BeginsRegex code) : BeginsRegex (c :: code) := by
  obtain ⟨blanks, text, later, each, read⟩ := begins
  have inert := of_isAsciiBlank (fun c => !isQuote c && c != '/' && !isWordChar c) (by decide)
    blank
  simp only [Bool.and_eq_true, Bool.not_eq_eq_eq_not, Bool.not_true, bne_iff_ne] at inert
  have first : Reads [] (.symbol c) code := .symbol inert.1.1 inert.1.2 inert.2 code
  refine ⟨c :: blanks, text, later, forall_mem_cons.mpr ⟨blank, each⟩, ?_⟩
  have whole := first.scanFrom_eq
  rw [Lexeme.text, singleton_append, reverse_singleton, append_nil,
    (sameContext_nil_of_blank blank code).scanFrom_eq] at whole
  rw [scan, whole, ← scan, read]
  rfl

/-- Where a slash begins no comment and is followed by the rest of a regular expression, the code
begins with one. -/
theorem beginsRegex_of_regexTail? {code : Text} (apart : ∀ c ∈ code.head?, c ≠ '/' ∧ c ≠ '*')
    (found : (regexTail? false code).isSome = true) : BeginsRegex ('/' :: code) := by
  obtain ⟨⟨span, after⟩, tail⟩ := isSome_iff_exists.mp found
  have read : next [] '/' code = (.regex ('/' :: span), after) := by
    rw [next_slash, atSlash]
    · rw [if_pos (show opensRegex [] = true from rfl), tail]
    · rintro rest rfl
      exact (apart '/' rfl).1 rfl
    · rintro rest rfl
      exact (apart '*' rfl).2 rfl
  exact ⟨[], '/' :: span, _, by simp, by rw [scan, scanFrom_cons, read]; rfl⟩

namespace SameEnd

variable {other code : Text}

/-- A word that goes on is the same one. -/
theorem takeWhile_eq (same : SameEnd before other (c :: code)) (inside : isWordChar c = true) :
    before.takeWhile isWordChar = other.takeWhile isWordChar := by
  rcases same.run with equal | stops
  · exact equal
  · exact absurd inside (by simp [stops c rfl])

theorem cons {c : Char} (same : SameEnd before other (c :: code)) (rest : Text) :
    SameEnd (c :: before) (c :: other) rest := by
  refine ⟨?_, .inl ?_⟩
  · have dots := same.dots
    rw [dotRun_cons, dotRun_cons]
    split <;> omega
  · by_cases inside : isWordChar c = true
    · rw [takeWhile_cons_of_pos inside, takeWhile_cons_of_pos inside,
        same.takeWhile_eq inside]
    · rw [takeWhile_cons_of_neg inside, takeWhile_cons_of_neg inside]

/-- After a character that is no blank, all that the scanner looks back for is alike. -/
theorem cons_visible (visible : isAsciiBlank c = false)
    (same : SameEnd before other (c :: code)) (rest : Text) :
    SameContext (c :: before) (c :: other) rest := by
  obtain ⟨dots, run⟩ := same.cons rest
  refine ⟨?_, dots, run⟩
  rw [opensRegex_cons, opensRegex_cons, visible, if_neg Bool.false_ne_true,
    if_neg Bool.false_ne_true]
  by_cases inside : isWordChar c = true
  · rw [same.takeWhile_eq inside]
  · rw [if_neg inside, if_neg inside]

theorem append_visible {tail : Text} (visible : isAsciiBlank c = false)
    (same : SameEnd before other (c :: (tail ++ code))) :
    SameContext ((c :: tail).reverse ++ before) ((c :: tail).reverse ++ other) code := by
  have first := same.cons_visible visible (tail ++ code)
  rw [reverse_cons, append_assoc, append_assoc]
  cases tail with
  | nil => exact same.cons_visible visible code
  | cons d tail => exact first.append (by simp)

theorem ofWord_eq (same : SameEnd before other code) (word : Text) :
    ofWord before word = ofWord other word := by
  have dots := same.dots
  have property : namesProperty before = namesProperty other := by
    rw [namesProperty_eq, namesProperty_eq, decide_eq_decide]
    omega
  rw [ofWord, ofWord, property]

/-- A lexeme also stands after the other text, unless the code begins with a regular expression. -/
theorem reads (same : SameEnd before other (lexeme.text ++ rest))
    (plain : ¬ BeginsRegex (lexeme.text ++ rest)) (read : Reads before lexeme rest) :
    Reads other lexeme rest := by
  cases read with
  | literal opens closed => exact .literal opens closed rest
  | openLiteral opens endless => exact .openLiteral opens endless
  | line inside stops => exact .line inside stops
  | block closed => exact .block closed rest
  | openBlock endless => exact .openBlock endless
  | regex expected closed block chars stops =>
    have alone : Reads [] _ rest := .regex rfl closed block chars stops
    exact absurd ⟨[], _, _, by simp, alone.scanFrom_eq⟩ plain
  | slash apart bare =>
    refine .slash apart fun _ => ?_
    by_contra found
    exact plain (beginsRegex_of_regexTail? apart (isSome_iff_ne_none.mpr found))
  | number begins chars stops => exact .number begins chars stops
  | word begins chars stops form => exact .word begins chars stops (form.trans (same.ofWord_eq _))
  | symbol inert slash outside => exact .symbol inert slash outside rest

/-- Texts before that end alike give the same lexemes, unless the code begins with a regular
expression: then it may be a division after one of them. -/
theorem scanFrom_eq (same : SameEnd before other code) (plain : ¬ BeginsRegex code) :
    scanFrom before code = scanFrom other code := by
  induction before, code using scan_induction generalizing other with
  | nil before => rw [scanFrom, scanFrom]
  | step before lexeme rest read ih =>
    rw [read.scanFrom_eq, (same.reads plain read).scanFrom_eq, List.cons.injEq]
    refine ⟨rfl, ?_⟩
    obtain ⟨c, tail, spelled, -⟩ := read.next_eq
    rw [spelled] at same plain ih ⊢
    rw [cons_append] at same plain
    cases blank : isAsciiBlank c with
    | false => exact (same.append_visible blank).scanFrom_eq
    | true =>
      obtain rfl : tail = [] := by
        have symbol := read.eq_symbol_of_blank blank (by rw [spelled]; rfl)
        rw [symbol] at spelled
        exact (List.cons.inj spelled).2.symm
      exact ih (same.cons rest) (mt (BeginsRegex.cons_blank blank) plain)

end SameEnd

end ComponentPack.Code.Lexeme
