import ComponentPack.Text.Basic
import Mathlib.Data.List.Infix

/-!
Where a phrase occurs in a text. A cut is at the first occurrence, which is told here by the
absence of earlier ones; a phrase none of whose beginnings is also one of its ends cannot begin in
one text and end in the next. At the end, the longest run of a class of characters, and the number
of bytes.
-/

set_option autoImplicit false

namespace ComponentPack.Text

open List

variable {phrase text head : Text} {c : Char}

theorem isPrefixOf?_eq_none_iff : phrase.isPrefixOf? text = none ↔ ¬ phrase <+: text := by
  rw [Option.eq_none_iff_forall_ne_some]
  constructor
  · rintro none_some ⟨rest, equal⟩
    exact none_some rest (List.isPrefixOf?_eq_some_iff_append_eq.mpr equal)
  · intro no_prefix rest found
    exact no_prefix ⟨rest, List.isPrefixOf?_eq_some_iff_append_eq.mp found⟩

theorem cut?_self_append (tail : Text) : cut? phrase (phrase ++ tail) = some ([], tail) := by
  cases text : phrase ++ tail with
  | nil =>
    obtain ⟨rfl, rfl⟩ := append_eq_nil_iff.mp text
    rfl
  | cons c rest =>
    have found : phrase.isPrefixOf? (c :: rest) = some tail :=
      List.isPrefixOf?_eq_some_iff_append_eq.mpr text
    simp only [cut?, found]

theorem cut?_cons_of_absent {rest : Text} (absent : ¬ phrase <+: c :: rest) :
    cut? phrase (c :: rest) = (cut? phrase rest).map fun (head, tail) => (c :: head, tail) := by
  have missing : phrase.isPrefixOf? (c :: rest) = none := isPrefixOf?_eq_none_iff.mpr absent
  simp only [cut?, missing]

/-- The phrase that ends a text is the first one, if it does not occur before its last character. -/
theorem cut?_append (tail : Text) (first : ¬ phrase <:+: head ++ phrase.dropLast) :
    cut? phrase (head ++ (phrase ++ tail)) = some (head, tail) := by
  induction head with
  | nil => exact cut?_self_append tail
  | cons c head ih =>
    rw [cons_append, infix_cons_iff, not_or] at first
    -- An earlier occurrence would end before the last character of the written one.
    have absent : ¬ phrase <+: c :: (head ++ (phrase ++ tail)) := by
      intro early
      apply first.1
      have shorter : phrase.length ≤ (c :: (head ++ phrase.dropLast)).length := by
        simp only [length_cons, length_append, length_dropLast]
        omega
      have longer : c :: (head ++ phrase.dropLast) <+: c :: (head ++ (phrase ++ tail)) := by
        rw [cons_prefix_cons]
        refine ⟨rfl, (prefix_append_right_inj head).mpr ?_⟩
        exact (List.dropLast_prefix phrase).trans (prefix_append phrase tail)
      exact prefix_of_prefix_length_le early longer shorter
    rw [cons_append, cut?_cons_of_absent absent, ih first.2]
    rfl

/-- A cut is at the first occurrence. -/
theorem cut?_eq_some_iff {tail : Text} (nonempty : phrase ≠ []) :
    cut? phrase text = some (head, tail) ↔
      text = head ++ (phrase ++ tail) ∧ ¬ phrase <:+: head ++ phrase.dropLast := by
  constructor
  · intro cut
    induction text generalizing head with
    | nil => simp [cut?, nonempty] at cut
    | cons c rest ih =>
      by_cases here : phrase <+: c :: rest
      · obtain ⟨after, equal⟩ := here
        rw [← equal, cut?_self_append, Option.some.injEq, Prod.mk.injEq] at cut
        obtain ⟨rfl, rfl⟩ := cut
        refine ⟨equal.symm, fun occurs => ?_⟩
        have length := occurs.length_le
        have positive := length_pos_iff.mpr nonempty
        rw [nil_append, length_dropLast] at length
        omega
      · rw [cut?_cons_of_absent here] at cut
        obtain ⟨⟨front, after⟩, later, pair⟩ := Option.map_eq_some_iff.mp cut
        cases pair
        obtain ⟨split, first⟩ := ih later
        refine ⟨by rw [split]; rfl, fun occurs => ?_⟩
        rcases infix_cons_iff.mp occurs with pre | inside
        · apply here
          rw [split]
          refine pre.trans (cons_prefix_cons.mpr ⟨rfl, ?_⟩)
          refine (prefix_append_right_inj front).mpr ?_
          exact (List.dropLast_prefix phrase).trans (prefix_append phrase tail)
        · exact first inside
  · rintro ⟨rfl, first⟩
    exact cut?_append tail first

theorem contains_iff_infix : contains phrase text = true ↔ phrase <:+: text := by
  induction text with
  | nil =>
    rw [infix_nil]
    cases phrase <;> simp [contains, cut?]
  | cons c rest ih =>
    by_cases here : phrase <+: c :: rest
    · obtain ⟨tail, equal⟩ := here
      have found : contains phrase (c :: rest) = true := by
        rw [contains, ← equal, cut?_self_append]
        rfl
      exact ⟨fun _ => List.IsPrefix.isInfix ⟨tail, equal⟩, fun _ => found⟩
    · rw [infix_cons_iff, ← ih, contains, cut?_cons_of_absent here, Option.isSome_map]
      exact ⟨Or.inr, fun either => either.resolve_left here⟩

/-- A text is cut at its first line feed, if it has one. -/
theorem cut?_newline (text : Text) :
    (cut? ['\n'] text = none ∧ '\n' ∉ text) ∨
      ∃ line rest, cut? ['\n'] text = some (line, rest) ∧ text = line ++ '\n' :: rest ∧
        '\n' ∉ line := by
  cases cut : cut? ['\n'] text with
  | none =>
    refine .inl ⟨rfl, fun member => ?_⟩
    have known := contains_iff_infix.mpr ((singleton_infix_iff _ _).mpr member)
    rw [contains, cut] at known
    cases known
  | some parts =>
    obtain ⟨line, rest⟩ := parts
    obtain ⟨whole, absent⟩ := (cut?_eq_some_iff (cons_ne_nil _ _)).mp cut
    rw [dropLast_singleton, append_nil, singleton_infix_iff] at absent
    exact .inr ⟨line, rest, rfl, whole, absent⟩

/-- No beginning of the phrase, but the empty and the whole one, is also an end of it. -/
def Borderless (phrase : Text) : Prop :=
  ∀ border, border ≠ [] → border <+: phrase → border <:+ phrase → border = phrase

theorem borderless_of_take_ne
    (differ : ∀ n < phrase.length, n ≠ 0 → phrase.take n ≠ phrase.drop (phrase.length - n)) :
    Borderless phrase := by
  intro border nonempty pre ends
  by_contra other
  have shorter : border.length < phrase.length := by
    refine lt_of_le_of_ne pre.length_le fun same => ?_
    exact other (pre.eq_of_length same)
  refine differ border.length shorter ?_ ?_
  · exact Nat.ne_of_gt (length_pos_iff.mpr nonempty)
  · rw [← prefix_iff_eq_take.mp pre, ← suffix_iff_eq_drop.mp ends]

theorem infix_append_dropLast_iff (borderless : Borderless phrase) (nonempty : phrase ≠ []) :
    phrase <:+: head ++ phrase.dropLast ↔ phrase <:+: head := by
  have shorter : phrase.dropLast.length < phrase.length := by
    have positive := length_pos_iff.mpr nonempty
    rw [length_dropLast]
    omega
  constructor
  · intro occurs
    rcases infix_append_iff_ne_nil.mp occurs with
      inside | inside | ⟨l, r, -, hr, equal, -, pre⟩
    · exact inside
    · have := inside.length_le
      omega
    · have whole : r = phrase :=
        borderless r hr (pre.trans (List.dropLast_prefix phrase)) ⟨l, equal.symm⟩
      have := pre.length_le
      rw [whole] at this
      omega
  · exact infix_append_of_infix_left

theorem cut?_append_of_borderless (tail : Text) (borderless : Borderless phrase)
    (nonempty : phrase ≠ []) (free : ¬ phrase <:+: head) :
    cut? phrase (head ++ (phrase ++ tail)) = some (head, tail) :=
  cut?_append tail (mt (infix_append_dropLast_iff borderless nonempty).mp free)

/-- A character that is not in the phrase separates its occurrences. -/
theorem infix_append_cons_iff {before after : Text} (foreign : c ∉ phrase) :
    phrase <:+: before ++ c :: after ↔ phrase <:+: before ∨ phrase <:+: after := by
  constructor
  · intro occurs
    rcases infix_append_iff_ne_nil.mp occurs with
      inside | inside | ⟨l, r, -, hr, equal, -, pre⟩
    · exact .inl inside
    · rcases infix_cons_iff.mp inside with pre | inside
      · cases phrase with
        | nil => exact .inl List.nil_infix
        | cons d phrase =>
          have same : d = c := (cons_prefix_cons.mp pre).1
          exact absurd (same ▸ mem_cons_self) foreign
      · exact .inr inside
    · cases r with
      | nil => exact absurd rfl hr
      | cons d r =>
        have same : d = c := (cons_prefix_cons.mp pre).1
        exact absurd (equal ▸ mem_append_right l (same ▸ mem_cons_self)) foreign
  · rintro (inside | inside)
    · exact infix_append_of_infix_left inside
    · exact infix_append_of_infix_right (infix_cons inside)

/-- What holds of each of the five blanks holds of every blank. -/
theorem of_isAsciiBlank (p : Char → Bool) (each : [' ', '\t', '\n', '\r', '\x0c'].all p = true)
    (blank : isAsciiBlank c = true) : p c = true :=
  all_eq_true.mp each c (by simpa [isAsciiBlank, or_assoc] using blank)

section Runs

variable {p : Char → Bool} {run rest : Text}

theorem takeWhile_eq_nil (stops : ∀ c ∈ rest.head?, p c = false) : rest.takeWhile p = [] := by
  cases rest with
  | nil => rfl
  | cons c rest => exact takeWhile_cons_of_neg (by simp [stops c rfl])

/-- A run of a class is taken as a whole, if no character of the class follows it. -/
theorem takeWhile_append_eq (inside : ∀ c ∈ run, p c = true)
    (stops : ∀ c ∈ rest.head?, p c = false) : (run ++ rest).takeWhile p = run := by
  rw [takeWhile_append_of_pos inside, takeWhile_eq_nil stops, append_nil]

theorem dropWhile_append_eq (inside : ∀ c ∈ run, p c = true)
    (stops : ∀ c ∈ rest.head?, p c = false) : (run ++ rest).dropWhile p = rest := by
  rw [dropWhile_append_of_pos inside]
  cases rest with
  | nil => exact dropWhile_nil
  | cons c rest => exact dropWhile_cons_of_neg (by simp [stops c rfl])

/-- What is left after the longest run does not begin with a character of the class. -/
theorem stops_dropWhile (text : Text) : ∀ c ∈ (text.dropWhile p).head?, p c = false := by
  intro c first
  have stopped := List.head?_dropWhile_not p text
  rw [Option.mem_def.mp first] at stopped
  simpa using stopped

theorem mem_takeWhile (first : c ∈ rest.head?) (inside : p c = true) : c ∈ rest.takeWhile p := by
  obtain ⟨others, rfl⟩ := List.head?_eq_some_iff.mp first
  rw [takeWhile_cons_of_pos inside]
  exact mem_cons_self

end Runs

theorem byteSize_append (a b : Text) : byteSize (a ++ b) = byteSize a + byteSize b := by
  induction a with
  | nil => simp [byteSize]
  | cons c a ih =>
    rw [cons_append, byteSize, byteSize, ih]
    omega

theorem byteSize_le_of_isPrefix {a b : Text} (first : a <+: b) : a.byteSize ≤ b.byteSize := by
  obtain ⟨rest, rfl⟩ := first
  rw [byteSize_append]
  omega

end ComponentPack.Text
