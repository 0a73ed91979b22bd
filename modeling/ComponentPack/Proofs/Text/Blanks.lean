import Mathlib
import ComponentPack.Proofs.Text.Pieces

/-!
Texts without their blanks, and lines without the carriage returns at their ends. A text is what is
left of it after trimming, with blanks around; cutting it into lines loses nothing but blanks.
-/

set_option autoImplicit false

namespace ComponentPack.Text

open List

variable {text phrase line : Text} {c : Char}

theorem exists_trimEnd (text : Text) :
    ∃ gap, text = trimEnd text ++ gap ∧ (∀ c ∈ gap, isBlank c = true) ∧
      ∀ c ∈ (trimEnd text).getLast?, isBlank c = false := by
  refine ⟨(text.reverse.takeWhile isBlank).reverse, ?_, ?_, ?_⟩
  · rw [trimEnd, ← reverse_append, takeWhile_append_dropWhile, reverse_reverse]
  · intro c member
    exact mem_takeWhile_imp (mem_reverse.mp member)
  · rw [trimEnd, getLast?_reverse]
    exact stops_dropWhile _

/-- What trimming takes away is blank, and what it leaves has no blanks around it. -/
theorem exists_trim (text : Text) :
    ∃ front back, text = front ++ (trim text ++ back) ∧ (∀ c ∈ front, isBlank c = true) ∧
      (∀ c ∈ back, isBlank c = true) ∧ Trimmed (trim text) := by
  obtain ⟨back, split, blank, ends⟩ := exists_trimEnd (trimStart text)
  rw [← trim] at split ends
  refine ⟨text.takeWhile isBlank, back, ?_, fun c member => mem_takeWhile_imp member, blank,
    ?_, ends⟩
  · rw [← split, trimStart, takeWhile_append_dropWhile]
  · intro c first
    refine stops_dropWhile (p := isBlank) text c ?_
    rw [← trimStart, split]
    obtain ⟨rest, equal⟩ := head?_eq_some_iff.mp first
    rw [equal]
    rfl

theorem trimmed_trim (text : Text) : Trimmed (trim text) := by
  obtain ⟨_, _, -, -, -, trimmed⟩ := exists_trim text
  exact trimmed

theorem trim_eq_nil_iff : trim text = [] ↔ ∀ c ∈ text, isBlank c = true := by
  obtain ⟨front, back, split, before, after, -⟩ := exists_trim text
  constructor
  · intro empty c member
    rw [split, empty, nil_append, mem_append] at member
    exact member.elim (before c) (after c)
  · intro blank
    have nothing : Trimmed [] := ⟨by simp, by simp⟩
    have trimmed := nothing.trim_eq blank (forall_mem_nil _)
    rwa [append_nil, append_nil] at trimmed

/-- A phrase that stands at the beginning of a text, after any blanks. -/
theorem isPrefixOf?_trimStart_eq_some_iff {rest : Text} (filled : phrase ≠ [])
    (starts : phrase.head?.any isBlank = false) :
    phrase.isPrefixOf? (trimStart text) = some rest ↔
      ∃ gap, (∀ c ∈ gap, isBlank c = true) ∧ text = gap ++ (phrase ++ rest) := by
  constructor
  · intro read
    have whole := eq_append_of_isPrefixOf? read
    refine ⟨text.takeWhile isBlank, fun c member => mem_takeWhile_imp member, ?_⟩
    rw [← whole, trimStart, takeWhile_append_dropWhile]
  · rintro ⟨gap, blank, rfl⟩
    have stops : ∀ c ∈ (phrase ++ rest).head?, isBlank c = false := by
      intro c first
      rw [head?_append_of_ne_nil phrase filled] at first
      rwa [Option.mem_def.mp first] at starts
    rw [trimStart, dropWhile_append_eq blank stops]
    exact isPrefixOf?_eq_some_iff_append_eq.mpr rfl

/-- The characters of a text that are no blanks. -/
def visible (text : Text) : Text := text.filter fun c => !isBlank c

theorem visible_append (a b : Text) : visible (a ++ b) = visible a ++ visible b :=
  filter_append ..

theorem visible_cons_blank (blank : isBlank c = true) (text : Text) :
    visible (c :: text) = visible text :=
  filter_cons_of_neg (by simp [blank])

theorem visible_cons (shown : isBlank c = false) (text : Text) :
    visible (c :: text) = c :: visible text :=
  filter_cons_of_pos (by simp [shown])

theorem visible_of_blank (blank : ∀ c ∈ text, isBlank c = true) : visible text = [] :=
  filter_eq_nil_iff.mpr fun c member => by simp [blank c member]

theorem visible_trim (text : Text) : visible (trim text) = visible text := by
  obtain ⟨front, back, split, before, after, -⟩ := exists_trim text
  conv_rhs => rw [split]
  rw [visible_append, visible_append, visible_of_blank before, visible_of_blank after,
    nil_append, append_nil]

theorem visible_joinLines (parts : List Text) :
    visible (joinLines parts) = parts.flatMap visible := by
  induction parts with
  | nil => rfl
  | cons part parts ih =>
    cases parts with
    | nil => simp [joinLines]
    | cons next parts =>
      rw [joinLines, intercalate_cons_cons, ← joinLines, visible_append, visible_append, ih,
        append_assoc, flatMap_cons]
      rfl

/-- A text is empty, or a last line without a line feed, or a line and what follows its line
feed. -/
theorem line_induction {motive : Text → Prop} (nil : motive [])
    (last : ∀ line, line ≠ [] → '\n' ∉ line → motive line)
    (step : ∀ line rest, '\n' ∉ line → motive rest → motive (line ++ '\n' :: rest))
    (text : Text) : motive text := by
  have joined : ∀ pieces : List Text, (∀ piece ∈ pieces, '\n' ∉ piece) →
      motive (List.intercalate ['\n'] pieces) := by
    intro pieces single
    induction pieces with
    | nil => exact nil
    | cons piece pieces ih =>
      obtain ⟨first, single⟩ := forall_mem_cons.mp single
      cases pieces with
      | nil =>
        rw [intercalate_singleton]
        by_cases empty : piece = []
        · exact empty ▸ nil
        · exact last piece empty first
      | cons next pieces =>
        rw [intercalate_cons_cons, append_assoc]
        exact step piece _ first (ih single)
  rw [← intercalate_splitAll '\n' text]
  exact joined _ fun piece member => not_mem_of_mem_splitAll member

/-- A line without the carriage return that may end it. -/
def dropReturn (line : Text) : Text := if line.getLast? = some '\r' then line.dropLast else line

theorem dropReturn_cons_cons (c d : Char) (line : Text) :
    dropReturn (c :: d :: line) = c :: dropReturn (d :: line) := by
  rw [dropReturn, dropReturn, getLast?_cons_cons, dropLast_cons_cons]
  split <;> rfl

theorem lines_of_single (filled : line ≠ []) (single : '\n' ∉ line) : lines line = [line] := by
  induction line with
  | nil => exact absurd rfl filled
  | cons c line ih =>
    rw [mem_cons, not_or] at single
    have pair : ∀ rest, c = '\r' → line = '\n' :: rest → False := by
      rintro rest - rfl
      exact single.2 mem_cons_self
    cases line with
    | nil =>
      rw [lines]
      · rfl
      · exact Ne.symm single.1
      · exact pair
    | cons d line =>
      rw [lines, ih (cons_ne_nil d line) single.2]
      · exact Ne.symm single.1
      · exact pair

/-- The first line ends at the first line feed, and a carriage return before it is dropped. -/
theorem lines_append_feed (single : '\n' ∉ line) (rest : Text) :
    lines (line ++ '\n' :: rest) = dropReturn line :: lines rest := by
  induction line with
  | nil => rw [nil_append, lines]; rfl
  | cons c line ih =>
    rw [mem_cons, not_or] at single
    cases line with
    | nil =>
      by_cases returns : c = '\r'
      · subst returns
        rw [cons_append, nil_append, lines]
        rfl
      · have kept : dropReturn [c] = [c] := if_neg (by simpa using returns)
        rw [cons_append, nil_append, lines, lines, kept]
        · exact Ne.symm single.1
        · exact fun _ same => absurd same returns
    | cons d line =>
      have pair : ∀ tail, c = '\r' → d :: line ++ '\n' :: rest = '\n' :: tail → False := by
        intro tail _ same
        exact single.2 ((List.cons.inj same).1 ▸ mem_cons_self)
      rw [cons_append, lines, ih single.2, dropReturn_cons_cons]
      · exact Ne.symm single.1
      · exact pair

theorem joinLines_singleton (line : Text) : joinLines [line] = line := intercalate_singleton

theorem joinLines_concat {lines : List Text} (filled : lines ≠ []) (line : Text) :
    joinLines (lines ++ [line]) = joinLines lines ++ '\n' :: line := by
  induction lines with
  | nil => exact absurd rfl filled
  | cons first lines ih =>
    cases lines with
    | nil => simp [joinLines]
    | cons second lines =>
      have inner := ih (cons_ne_nil second lines)
      simp only [joinLines, cons_append, intercalate_cons_cons] at inner ⊢
      rw [inner, ← append_assoc]

theorem isPrefix_dropReturn (line : Text) : dropReturn line <+: line := by
  rw [dropReturn]
  split
  · exact List.dropLast_prefix line
  · exact prefix_rfl

theorem visible_dropReturn (line : Text) : visible (dropReturn line) = visible line := by
  rw [dropReturn]
  split
  · next last =>
    obtain ⟨front, rfl⟩ := getLast?_eq_some_iff.mp last
    have returns : ∀ c ∈ ['\r'], isBlank c = true := forall_mem_singleton.mpr rfl
    rw [dropLast_concat, visible_append, visible_of_blank returns, append_nil]
  · rfl

/-- Lines have all of a text but its line ends. -/
theorem flatMap_visible_lines (text : Text) : (lines text).flatMap visible = visible text := by
  induction text using line_induction with
  | nil => rfl
  | last line filled single => rw [lines_of_single filled single, flatMap_singleton]
  | step line rest single ih =>
    rw [lines_append_feed single, flatMap_cons, ih, visible_dropReturn, visible_append,
      visible_cons_blank (by decide)]

/-- A text without the carriage returns before its line feeds. -/
def dropReturns : Text → Text
  | [] => []
  | '\r' :: '\n' :: rest => '\n' :: dropReturns rest
  | c :: rest => c :: dropReturns rest

theorem dropReturns_cons (kept : c = '\r' → text.head? ≠ some '\n') :
    dropReturns (c :: text) = c :: dropReturns text := by
  rw [dropReturns]
  rintro rest rfl rfl
  exact kept rfl rfl

theorem dropReturns_cons_of_ne {c : Char} (other : c ≠ '\r') (text : Text) :
    dropReturns (c :: text) = c :: dropReturns text :=
  dropReturns_cons (absurd · other)

theorem dropReturns_cons_eq (c : Char) (text : Text) :
    dropReturns (c :: text) =
      if c = '\r' ∧ text.head? = some '\n' then dropReturns text else c :: dropReturns text := by
  split
  · next pair =>
    obtain ⟨rfl, first⟩ := pair
    obtain ⟨rest, rfl⟩ := head?_eq_some_iff.mp first
    rw [dropReturns, dropReturns_cons_of_ne (by decide)]
  · next other => exact dropReturns_cons fun returns first => other ⟨returns, first⟩

/-- Texts are treated one by one, unless a carriage return ends one and a line feed begins the
next. -/
theorem dropReturns_append {rest : Text} (kept : text.getLast? = some '\r' → rest.head? ≠ some '\n')
    :
    dropReturns (text ++ rest) = dropReturns text ++ dropReturns rest := by
  fun_induction dropReturns text with
  | case1 => rfl
  | case2 text ih =>
    rw [cons_append, cons_append, dropReturns, ih, cons_append]
    intro last
    refine kept ?_
    rw [getLast?_cons, getLast?_cons, last]
    rfl
  | case3 c text pair ih =>
    cases text with
    | nil => exact dropReturns_cons fun returns => kept (returns ▸ rfl)
    | cons d text =>
      rw [cons_append, dropReturns_cons, ih, cons_append]
      · rwa [getLast?_cons_cons] at kept
      · rintro rfl first
        cases first
        exact pair text rfl rfl

theorem dropReturns_of_not_mem (absent : '\r' ∉ text) : dropReturns text = text := by
  induction text with
  | nil => rfl
  | cons c text ih =>
    rw [mem_cons, not_or] at absent
    rw [dropReturns_cons_of_ne (Ne.symm absent.1), ih absent.2]

theorem dropReturns_of_single (single : '\n' ∉ line) : dropReturns line = line := by
  induction line with
  | nil => rfl
  | cons c line ih =>
    rw [mem_cons, not_or] at single
    rw [dropReturns_cons, ih single.2]
    exact fun _ first => single.2 (mem_of_mem_head? first)

theorem dropReturns_feed (single : '\n' ∉ line) :
    dropReturns (line ++ ['\n']) = dropReturn line ++ ['\n'] := by
  rw [dropReturn]
  split
  · next last =>
    obtain ⟨front, rfl⟩ := getLast?_eq_some_iff.mp last
    have inside : '\n' ∉ front := fun member => single (mem_append_left _ member)
    rw [dropLast_concat, append_assoc, dropReturns_append (by simp),
      dropReturns_of_single inside]
    rfl
  · next last => rw [dropReturns_append (absurd · last), dropReturns_of_single single]; rfl

/-- A text begins as before or with a line feed. -/
theorem head?_dropReturns {P : Char → Prop} (first : ∀ c ∈ text.head?, P c) (feed : P '\n') :
    ∀ c ∈ (dropReturns text).head?, P c := by
  rw [dropReturns.eq_def]
  split
  · exact first
  · rintro c ⟨⟩
    exact feed
  · exact first

/-- Dropping carriage returns brings no phrase about that has no line feed. -/
theorem prefix_of_prefix_dropReturns (single : '\n' ∉ phrase) (begins : phrase <+: dropReturns text)
    : phrase <+: text := by
  induction phrase generalizing text with
  | nil => exact List.nil_prefix
  | cons c phrase ih =>
    rw [mem_cons, not_or] at single
    cases text with
    | nil => exact absurd begins (by simp [dropReturns])
    | cons d text =>
      have kept : ¬ (d = '\r' ∧ text.head? = some '\n') := by
        rintro ⟨rfl, first⟩
        obtain ⟨rest, rfl⟩ := head?_eq_some_iff.mp first
        rw [dropReturns] at begins
        exact single.1 (cons_prefix_cons.mp begins).1.symm
      rw [dropReturns_cons_eq, if_neg kept, cons_prefix_cons] at begins
      exact cons_prefix_cons.mpr ⟨begins.1, ih single.2 begins.2⟩

theorem infix_of_infix_dropReturns (single : '\n' ∉ phrase) (occurs : phrase <:+: dropReturns text)
    : phrase <:+: text := by
  fun_induction dropReturns text with
  | case1 => exact occurs
  | case2 text ih =>
    rcases infix_cons_iff.mp occurs with begins | later
    · have feed : phrase <+: dropReturns ('\n' :: text) := by
        rwa [dropReturns_cons_of_ne (by decide)]
      exact (prefix_of_prefix_dropReturns single feed).isInfix.trans ⟨['\r'], [], by simp⟩
    · exact (ih later).trans ⟨['\r', '\n'], [], by simp⟩
  | case3 c text pair ih =>
    have whole : dropReturns (c :: text) = c :: dropReturns text := by
      rw [dropReturns]
      exact pair
    rcases infix_cons_iff.mp occurs with begins | later
    · exact (prefix_of_prefix_dropReturns single (whole ▸ begins)).isInfix
    · exact (ih later).trans (infix_cons (infix_refl text))

end ComponentPack.Text
