import ComponentPack.Module.Literal
import ComponentPack.Proofs.Text.Pieces

/-!
Lines that end in a backslash go on in the next line when they stand in a literal. Texts without
such a line are closed under appending, and stay so when their lines are moved to the right.
-/

set_option autoImplicit false

namespace ComponentPack.Text

open List

/-- No line of the text ends in a backslash. -/
structure Uncontinued (text : Text) : Prop where
  inner : ¬ ['\\', '\n'] <:+: text
  last : text.getLast? ≠ some '\\'

namespace Uncontinued

theorem nil : Uncontinued [] := ⟨by simp, by simp⟩

theorem append {a b : Text} (ha : Uncontinued a) (hb : Uncontinued b) : Uncontinued (a ++ b) := by
  constructor
  · intro occurs
    rcases infix_append_iff_ne_nil.mp occurs with
      inside | inside | ⟨l, r, hl, hr, equal, ends, -⟩
    · exact ha.inner inside
    · exact hb.inner inside
    · -- The pair is cut in its middle, so that the backslash ends the first text.
      have single : l = ['\\'] := by
        cases l with
        | nil => exact absurd rfl hl
        | cons c l =>
          cases l with
          | nil =>
            rw [singleton_append, List.cons.injEq] at equal
            rw [← equal.1]
          | cons d l =>
            have short := congrArg List.length equal
            have positive := length_pos_iff.mpr hr
            simp only [length_cons, length_append, length_nil] at short
            omega
      obtain ⟨front, whole⟩ := ends
      apply ha.last
      rw [← whole, single, List.getLast?_concat]
  · rw [List.getLast?_append]
    cases last : b.getLast? with
    | none => exact ha.last
    | some c =>
      rw [Option.some_or]
      exact last ▸ hb.last

theorem of_line {line : Text} (single : '\n' ∉ line) (last : line.getLast? ≠ some '\\') :
    Uncontinued line :=
  ⟨fun occurs => single (occurs.subset (by simp)), last⟩

theorem of_plain {text : Text} (plain : '\\' ∉ text) : Uncontinued text :=
  ⟨fun occurs => plain (occurs.subset (by simp)),
    fun last => plain (mem_of_getLast? last)⟩

/-- What stands before a line feed does not end in a backslash, and neither does the rest. -/
theorem split {first rest : Text} (h : Uncontinued (first ++ '\n' :: rest)) :
    Uncontinued first ∧ Uncontinued rest := by
  constructor
  · refine ⟨fun occurs => h.inner (infix_append_of_infix_left occurs), fun last => ?_⟩
    obtain ⟨front, rfl⟩ := List.getLast?_eq_some_iff.mp last
    exact h.inner ⟨front, rest, by simp⟩
  · refine ⟨fun occurs => h.inner ?_, fun last => h.last ?_⟩
    · exact infix_append_of_infix_right (infix_cons occurs)
    · rw [List.getLast?_append, List.getLast?_cons, last]
      rfl

end Uncontinued

theorem newline_not_mem_of_mem_lines {text line : Text} (member : line ∈ lines text) :
    '\n' ∉ line := by
  induction text using lines.induct generalizing line with
  | case1 => simp [lines] at member
  | case2 rest ih =>
    rw [lines, mem_cons] at member
    rcases member with rfl | member
    · exact not_mem_nil
    · exact ih member
  | case3 rest ih =>
    rw [lines, mem_cons] at member
    rcases member with rfl | member
    · exact not_mem_nil
    · exact ih member
  | case4 c rest feed pair none ih =>
    rw [lines, none, mem_singleton] at member
    · subst member
      simpa using Ne.symm feed
    · exact feed
    · exact pair
  | case5 c rest feed pair first others found ih =>
    rw [lines, found, mem_cons] at member
    · rcases member with rfl | member
      · have inner := ih (found ▸ mem_cons_self)
        rw [mem_cons, not_or]
        exact ⟨Ne.symm feed, inner⟩
      · exact ih (found ▸ mem_cons_of_mem first member)
    · exact feed
    · exact pair

theorem lines_ne_nil (c : Char) (rest : Text) : lines (c :: rest) ≠ [] := by
  rw [lines.eq_def]
  split
  · next h => exact absurd h (by simp)
  · simp
  · simp
  · split <;> simp

/-- A text whose first line is empty begins with a line feed. -/
theorem begins_of_lines_nil {text : Text} {others : List Text} (returns : '\r' ∉ text)
    (found : lines text = [] :: others) : ∃ after, text = '\n' :: after := by
  rw [lines.eq_def] at found
  split at found
  · exact absurd found (by simp)
  · next rest => exact ⟨rest, rfl⟩
  · exact absurd mem_cons_self returns
  · split at found <;> simp at found

/-- Without carriage returns, the lines of a text are all that stands before its line feeds. -/
theorem getLast?_ne_of_mem_lines {text line : Text} (h : Uncontinued text)
    (returns : '\r' ∉ text) (member : line ∈ lines text) : line.getLast? ≠ some '\\' := by
  induction text using lines.induct generalizing line with
  | case1 => simp [lines] at member
  | case2 rest ih =>
    rw [lines, mem_cons] at member
    rcases member with rfl | member
    · simp
    · exact ih (@Uncontinued.split [] rest h).2 (by simp_all) member
  | case3 rest ih => exact absurd mem_cons_self returns
  | case4 c rest feed pair none ih =>
    rw [lines, none, mem_singleton] at member
    · have empty : rest = [] := by
        cases rest with
        | nil => rfl
        | cons d rest => exact absurd none (lines_ne_nil d rest)
      rw [member]
      exact empty ▸ h.last
    · exact feed
    · exact pair
  | case5 c rest feed pair first others found ih =>
    have tail : Uncontinued rest := by
      refine ⟨fun occurs => h.inner (infix_cons occurs), fun last => h.last ?_⟩
      rw [List.getLast?_cons, last]
      rfl
    have inside : '\r' ∉ rest := fun inner => returns (mem_cons_of_mem c inner)
    rw [lines, found, mem_cons] at member
    · rcases member with rfl | member
      · cases first with
        | nil =>
          -- The character stands right before a line feed.
          obtain ⟨after, rfl⟩ := begins_of_lines_nil inside found
          intro last
          obtain rfl : c = '\\' := by simpa using last
          exact h.inner ⟨[], after, rfl⟩
        | cons d first =>
          rw [List.getLast?_cons_cons]
          exact ih tail inside (found ▸ mem_cons_self)
      · exact ih tail inside (found ▸ mem_cons_of_mem first member)
    · exact feed
    · exact pair

end ComponentPack.Text

namespace ComponentPack.Module

open Text

theorem uncontinued_indent (width : Nat) {text : Text} (h : Uncontinued text)
    (returns : '\r' ∉ text) : Uncontinued (indent width text) := by
  refine intercalate_of_append .nil (fun _ _ => .append) (.of_plain (by simp)) fun part member => ?_
  obtain ⟨line, among, rfl⟩ := List.mem_map.mp member
  split
  · exact .nil
  · have blanks : Uncontinued (List.replicate width ' ') :=
      .of_plain fun slash => absurd (List.eq_of_mem_replicate slash) (by decide)
    exact blanks.append (.of_line (newline_not_mem_of_mem_lines among)
      (getLast?_ne_of_mem_lines h returns among))

theorem uncontinued_indentTail (width : Nat) {text : Text} (h : Uncontinued text)
    (returns : '\r' ∉ text) : Uncontinued (indentTail width text) := by
  rw [indentTail]
  split
  · next first rest cut =>
    obtain rfl := eq_append_of_cut? cut
    obtain ⟨before, after⟩ := h.split
    have inside : '\r' ∉ rest := fun inner => returns (by simp [inner])
    have feed : Uncontinued ['\n'] := .of_plain (by simp)
    exact before.append (feed.append (uncontinued_indent width after inside))
  · exact h

end ComponentPack.Module
