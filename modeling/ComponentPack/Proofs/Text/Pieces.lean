import ComponentPack.Proofs.Text.Occurrence

/-!
Texts as pieces: those between the occurrences of a mark, the lines, and what stands between
blanks. Parts that are joined by a mark are the pieces again if no part has the mark in it.
-/

set_option autoImplicit false

namespace ComponentPack.Text

open List

variable {mark : Char} {text : Text}

/-- What is closed under appending holds of joined texts. -/
theorem intercalate_of_append {P : Text → Prop} (nil : P [])
    (append : ∀ a b, P a → P b → P (a ++ b)) {separator : Text} (hs : P separator)
    {parts : List Text} (hp : ∀ part ∈ parts, P part) : P (List.intercalate separator parts) := by
  induction parts with
  | nil => exact nil
  | cons part parts ih =>
    have first := hp part mem_cons_self
    cases parts with
    | nil => rwa [intercalate_singleton]
    | cons next others =>
      rw [intercalate_cons_cons]
      have later := ih fun p member => hp p (mem_cons_of_mem part member)
      exact append _ _ (append _ _ first hs) later

theorem splitAll_ne_nil (mark : Char) (text : Text) : splitAll mark text ≠ [] := by
  cases text with
  | nil => simp [splitAll]
  | cons c rest =>
    rw [splitAll]
    split
    · simp
    · split <;> simp

theorem splitAll_of_not_mem (absent : mark ∉ text) : splitAll mark text = [text] := by
  induction text with
  | nil => rfl
  | cons c rest ih =>
    rw [mem_cons, not_or] at absent
    rw [splitAll, if_neg (Ne.symm absent.1), ih absent.2]

theorem splitAll_append (mark : Char) (a b : Text) :
    splitAll mark (a ++ mark :: b) = splitAll mark a ++ splitAll mark b := by
  induction a with
  | nil =>
    have first : splitAll mark (mark :: b) = [] :: splitAll mark b := if_pos rfl
    rw [nil_append, first]
    rfl
  | cons c a ih =>
    rw [cons_append, splitAll, splitAll, ih]
    split
    · rfl
    · cases pieces : splitAll mark a with
      | nil => exact absurd pieces (splitAll_ne_nil mark a)
      | cons piece others => rfl

theorem not_mem_of_mem_splitAll {mark : Char} {text piece : Text}
    (member : piece ∈ splitAll mark text) : mark ∉ piece := by
  induction text generalizing piece with
  | nil => simp_all [splitAll]
  | cons c rest ih =>
    rw [splitAll] at member
    split at member
    · rcases mem_cons.mp member with rfl | member
      · simp
      · exact ih member
    · next other =>
      cases pieces : splitAll mark rest with
      | nil => exact absurd pieces (splitAll_ne_nil mark rest)
      | cons first others =>
        rw [pieces] at member ih
        rcases mem_cons.mp member with rfl | member
        · rw [mem_cons, not_or]
          exact ⟨Ne.symm other, ih mem_cons_self⟩
        · exact ih (mem_cons_of_mem first member)

theorem subset_of_mem_splitAll {piece : Text} (member : piece ∈ splitAll mark text) :
    ∀ c ∈ piece, c ∈ text := by
  induction text generalizing piece with
  | nil => simp_all [splitAll]
  | cons first rest ih =>
    intro c inside
    rw [splitAll] at member
    cases pieces : splitAll mark rest with
    | nil => exact absurd pieces (splitAll_ne_nil mark rest)
    | cons head others =>
      rw [pieces] at member ih
      split at member
      · rcases mem_cons.mp member with rfl | member
        · simp at inside
        · exact mem_cons_of_mem first (ih member c inside)
      · rcases mem_cons.mp member with rfl | member
        · rcases mem_cons.mp inside with rfl | inside
          · exact mem_cons_self
          · exact mem_cons_of_mem first (ih mem_cons_self c inside)
        · exact mem_cons_of_mem first (ih (mem_cons_of_mem head member) c inside)

theorem intercalate_splitAll (mark : Char) (text : Text) :
    List.intercalate [mark] (splitAll mark text) = text := by
  induction text with
  | nil => rfl
  | cons c rest ih =>
    rw [splitAll]
    cases pieces : splitAll mark rest with
    | nil => exact absurd pieces (splitAll_ne_nil mark rest)
    | cons piece others =>
      rw [pieces] at ih
      split
      · next same =>
        rw [intercalate_cons_cons, ih, nil_append, same]
        rfl
      · cases others with
        | nil =>
          rw [intercalate_singleton] at ih ⊢
          rw [ih]
        | cons next others =>
          rw [intercalate_cons_cons] at ih ⊢
          rw [cons_append, cons_append, ih]

theorem splitAll_intercalate {pieces : List Text} (nonempty : pieces ≠ [])
    (absent : ∀ piece ∈ pieces, mark ∉ piece) :
    splitAll mark (List.intercalate [mark] pieces) = pieces := by
  induction pieces with
  | nil => exact absurd rfl nonempty
  | cons piece others ih =>
    have first := absent piece mem_cons_self
    cases others with
    | nil => rw [intercalate_singleton, splitAll_of_not_mem first]
    | cons next others =>
      have later := ih (by simp) fun p member => absent p (mem_cons_of_mem piece member)
      rw [intercalate_cons_cons, append_assoc, singleton_append, splitAll_append,
        splitAll_of_not_mem first, later]
      rfl

theorem splitAll_append_of_not_mem {a : Text} (absent : mark ∉ a) (b : Text) :
    ∃ piece others, splitAll mark b = piece :: others ∧
      splitAll mark (a ++ b) = (a ++ piece) :: others := by
  induction a with
  | nil =>
    obtain ⟨piece, others, pieces⟩ := exists_cons_of_ne_nil (splitAll_ne_nil mark b)
    exact ⟨piece, others, pieces, pieces⟩
  | cons c a ih =>
    rw [mem_cons, not_or] at absent
    obtain ⟨piece, others, pieces, joined⟩ := ih absent.2
    refine ⟨piece, others, pieces, ?_⟩
    rw [cons_append, splitAll, if_neg (Ne.symm absent.1), joined]
    rfl

/-- The first piece begins the text, and every further one stands after a mark. -/
theorem prefix_of_splitAll {piece : Text} {others : List Text}
    (pieces : splitAll mark text = piece :: others) :
    piece <+: text ∧ ∀ other ∈ others, mark :: other <:+: text := by
  induction text generalizing piece others with
  | nil =>
    cases pieces
    exact ⟨prefix_rfl, by simp⟩
  | cons c rest ih =>
    obtain ⟨first, later, split⟩ := exists_cons_of_ne_nil (splitAll_ne_nil mark rest)
    obtain ⟨begins, inside⟩ := ih split
    rw [splitAll, split] at pieces
    split at pieces
    · next same =>
      cases pieces
      refine ⟨List.nil_prefix, forall_mem_cons.mpr ⟨?_, fun other member => ?_⟩⟩
      · exact (cons_prefix_cons.mpr ⟨same.symm, begins⟩).isInfix
      · exact infix_cons (inside other member)
    · cases pieces
      refine ⟨cons_prefix_cons.mpr ⟨rfl, begins⟩, fun other member => ?_⟩
      exact infix_cons (inside other member)

theorem eq_of_cutLast? {head tail : Text} (cut : cutLast? mark text = some (head, tail)) :
    text = head ++ mark :: tail := by
  induction text generalizing head with
  | nil => simp [cutLast?] at cut
  | cons c rest ih =>
    rw [cutLast?] at cut
    split at cut
    · next inner _ later =>
      rw [Option.some.injEq, Prod.mk.injEq] at cut
      obtain ⟨rfl, rfl⟩ := cut
      rw [cons_append, ← ih later]
    · split at cut
      · next same =>
        rw [Option.some.injEq, Prod.mk.injEq] at cut
        obtain ⟨rfl, rfl⟩ := cut
        rw [same]
        rfl
      · simp at cut

theorem cutLast?_append (head : Text) {tail : Text} (absent : mark ∉ tail) :
    cutLast? mark (head ++ mark :: tail) = some (head, tail) := by
  induction head with
  | nil =>
    have none : cutLast? mark tail = none := by
      refine Option.eq_none_iff_forall_ne_some.mpr fun parts cut => absent ?_
      rw [eq_of_cutLast? cut]
      simp
    rw [nil_append, cutLast?, none]
    exact if_pos rfl
  | cons c head ih => rw [cons_append, cutLast?, ih]

theorem lines_append_newline (rest : Text) (returns : '\r' ∉ text) :
    lines (text ++ '\n' :: rest) = splitAll '\n' text ++ lines rest := by
  induction text with
  | nil => rw [nil_append, lines, splitAll, singleton_append]
  | cons c text ih =>
    rw [mem_cons, not_or] at returns
    obtain ⟨piece, others, pieces⟩ := exists_cons_of_ne_nil (splitAll_ne_nil '\n' text)
    rw [pieces] at ih
    by_cases feed : c = '\n'
    · subst feed
      rw [cons_append, lines, ih returns.2, splitAll, if_pos rfl, pieces]
      rfl
    · rw [cons_append, lines, ih returns.2, splitAll, if_neg feed, pieces]
      · rfl
      · exact feed
      · exact fun _ same => absurd same.symm returns.1

/-- Without carriage returns, lines are the pieces between line feeds. -/
theorem lines_eq_splitAll (filled : text ≠ []) (returns : '\r' ∉ text)
    (ends : text.getLast? ≠ some '\n') : lines text = splitAll '\n' text := by
  induction text with
  | nil => exact absurd rfl filled
  | cons c rest ih =>
    rw [mem_cons, not_or] at returns
    have plain : ∀ tail, c = '\r' → rest = '\n' :: tail → False := fun _ same =>
      absurd same.symm returns.1
    cases rest with
    | nil =>
      have other : c ≠ '\n' := fun feed => ends (feed ▸ rfl)
      rw [lines, splitAll, if_neg other]
      · rfl
      · exact other
      · exact plain
    | cons d rest =>
      have later := ih (cons_ne_nil d rest) returns.2 (List.getLast?_cons_cons ▸ ends)
      obtain ⟨piece, others, pieces⟩ :=
        exists_cons_of_ne_nil (splitAll_ne_nil '\n' (d :: rest))
      by_cases feed : c = '\n'
      · subst feed
        rw [lines, later, pieces, splitAll, if_pos rfl, pieces]
      · rw [lines, later, pieces, splitAll, if_neg feed, pieces]
        · exact feed
        · exact plain

theorem lines_joinLines {parts : List Text} (filled : ∀ part ∈ parts, part ≠ [])
    (returns : ∀ part ∈ parts, '\r' ∉ part) (ends : ∀ part ∈ parts, part.getLast? ≠ some '\n') :
    lines (joinLines parts) = parts.flatMap (splitAll '\n') := by
  induction parts with
  | nil => rfl
  | cons part parts ih =>
    obtain ⟨firstFilled, filled⟩ := forall_mem_cons.mp filled
    obtain ⟨firstReturns, returns⟩ := forall_mem_cons.mp returns
    obtain ⟨firstEnds, ends⟩ := forall_mem_cons.mp ends
    cases parts with
    | nil =>
      rw [joinLines, intercalate_singleton, flatMap_singleton]
      exact lines_eq_splitAll firstFilled firstReturns firstEnds
    | cons next parts =>
      rw [joinLines, intercalate_cons_cons, append_assoc, singleton_append,
        lines_append_newline _ firstReturns, flatMap_cons]
      exact congrArg _ (ih filled returns ends)

theorem head?_joinLines {part : Text} (filled : part ≠ []) (parts : List Text) :
    (joinLines (part :: parts)).head? = part.head? := by
  cases parts with
  | nil => rw [joinLines, intercalate_singleton]
  | cons next parts =>
    rw [joinLines, intercalate_cons_cons, append_assoc,
      List.head?_append_of_ne_nil part filled]

theorem trimEnd_append {gap : Text} (ends : ∀ c ∈ text.getLast?, isBlank c = false)
    (blank : ∀ c ∈ gap, isBlank c = true) : trimEnd (text ++ gap) = text := by
  have dropped : (gap.reverse ++ text.reverse).dropWhile isBlank = text.reverse :=
    dropWhile_append_eq (fun c member => blank c (mem_reverse.mp member))
      (List.head?_reverse ▸ ends)
  rw [trimEnd, reverse_append, dropped, reverse_reverse]

/-- A text that neither begins nor ends with a blank. -/
structure Trimmed (text : Text) : Prop where
  starts : ∀ c ∈ text.head?, isBlank c = false
  ends : ∀ c ∈ text.getLast?, isBlank c = false

theorem Trimmed.trim_eq (trimmed : Trimmed text) {front back : Text}
    (before : ∀ c ∈ front, isBlank c = true) (after : ∀ c ∈ back, isBlank c = true) :
    trim (front ++ (text ++ back)) = text := by
  cases text with
  | nil =>
    have blank : trimStart ((front ++ back) ++ []) = [] :=
      dropWhile_append_eq (fun c member => (mem_append.mp member).elim (before c) (after c))
        (by simp)
    rw [append_nil] at blank
    rw [nil_append, trim, blank]
    rfl
  | cons c rest =>
    have front_eq : trimStart (front ++ (c :: rest ++ back)) = c :: rest ++ back :=
      dropWhile_append_eq before trimmed.starts
    rw [trim, front_eq, trimEnd_append trimmed.ends after]

theorem Trimmed.trim_self (trimmed : Trimmed text) : trim text = text := by
  have whole : trim ([] ++ (text ++ [])) = text := trimmed.trim_eq (by simp) (by simp)
  rwa [nil_append, append_nil] at whole

theorem Trimmed.append {a b : Text} (first : Trimmed a) (last : Trimmed b) (startsIn : a ≠ [])
    (endsIn : b ≠ []) (middle : Text) : Trimmed (a ++ (middle ++ b)) := by
  constructor
  · rw [List.head?_append_of_ne_nil a startsIn]
    exact first.starts
  · rw [← append_assoc, List.getLast?_append_of_ne_nil (a ++ middle) endsIn]
    exact last.ends

theorem trimmed_joinLines {parts : List Text} (filled : ∀ part ∈ parts, part ≠ [])
    (trimmed : ∀ part ∈ parts, Trimmed part) : Trimmed (joinLines parts) := by
  suffices both : Trimmed (joinLines parts) ∧ (parts ≠ [] → joinLines parts ≠ []) from both.1
  induction parts with
  | nil => exact ⟨⟨by simp [joinLines], by simp [joinLines]⟩, absurd rfl⟩
  | cons part parts ih =>
    obtain ⟨firstFilled, filled⟩ := forall_mem_cons.mp filled
    obtain ⟨firstTrimmed, trimmed⟩ := forall_mem_cons.mp trimmed
    cases parts with
    | nil =>
      rw [joinLines, intercalate_singleton]
      exact ⟨firstTrimmed, fun _ => firstFilled⟩
    | cons next parts =>
      obtain ⟨later, nonempty⟩ := ih filled trimmed
      rw [joinLines, intercalate_cons_cons, append_assoc]
      refine ⟨firstTrimmed.append later firstFilled (nonempty (by simp)) ['\n'], fun _ => ?_⟩
      exact append_ne_nil_of_left_ne_nil firstFilled _

end ComponentPack.Text
