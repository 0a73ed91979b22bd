import Mathlib
import ComponentPack.Proofs.Code.Canonical
import ComponentPack.Proofs.Render.Names

/-!
Words and names. A substitution point is all of a word, but words are ASCII, while the names of
declarations and imports have all word characters of Unicode. So a substitution point is all of a
name just where the name around it is ASCII; elsewhere a part of a name is replaced.
-/

set_option autoImplicit false

namespace ComponentPack.Render

open Code List
open Code.Lexeme (isWordChar)

/-- The longest name that a word stands in, with the code before and after it. -/
def nameAround (before word after : Text) : Text :=
  (before.reverse.takeWhile isNameChar).reverse ++ (word ++ after.takeWhile isNameChar)

/-- Neither the code before nor the code after goes on with a name. -/
structure Whole (before after : Text) : Prop where
  starts : ∀ c ∈ before.getLast?, isNameChar c = false
  stops : ∀ c ∈ after.head?, isNameChar c = false

/-- Around a whole name there is no longer one. -/
theorem Whole.nameAround_eq {before after : Text} (whole : Whole before after) (word : Text) :
    nameAround before word after = word := by
  have front : before.reverse.takeWhile isNameChar = [] := by
    apply Text.takeWhile_eq_nil
    rw [head?_reverse]
    exact whole.starts
  rw [nameAround, front, Text.takeWhile_eq_nil whole.stops]
  simp

theorem mem_of_mem_nameAround {before word after : Text} {c : Char}
    (member : c ∈ nameAround before word after) : c ∈ before ++ (word ++ after) := by
  simp only [nameAround, mem_append, mem_reverse] at member ⊢
  rcases member with inside | inside | inside
  · exact .inl (mem_reverse.mp ((takeWhile_sublist _).subset inside))
  · exact .inr (.inl inside)
  · exact .inr (.inr ((takeWhile_sublist _).subset inside))

/-- A word with an ASCII name around it is that name: what goes on with it would be part of the
word. -/
theorem whole_of_ascii {before word after : Text} (free : Lexeme.Free before word after)
    (ascii : ∀ c ∈ nameAround before word after, c.toNat < 0x80) : Whole before after := by
  constructor
  · intro c last
    by_contra name
    rw [Bool.not_eq_false] at name
    have inside : c ∈ (before.reverse.takeWhile isNameChar).reverse :=
      mem_reverse.mpr (Text.mem_takeWhile (head?_reverse ▸ last) name)
    have word := isWordChar_iff.mpr ⟨name, ascii c (mem_append_left _ inside)⟩
    rw [free.starts c last] at word
    exact Bool.noConfusion word
  · intro c first
    by_contra name
    rw [Bool.not_eq_false] at name
    have inside := Text.mem_takeWhile first name
    have word := isWordChar_iff.mpr
      ⟨name, ascii c (mem_append_right _ (mem_append_right _ inside))⟩
    rw [free.stops c first] at word
    exact Bool.noConfusion word

/-- A substitution point is a whole name if and only if the name around it is ASCII, and so it
always is in ASCII code. -/
theorem whole_iff_ascii {code : Text} {front back : List Segment} {name : Text}
    (cut : (Fragment.parse code).segments = front ++ .identifier name :: back) :
    code = Segment.code front ++ (name ++ Segment.code back) ∧
    (Whole (Segment.code front) (Segment.code back) ↔
      ∀ c ∈ nameAround (Segment.code front) name (Segment.code back), c.toNat < 0x80) ∧
    ((∀ c ∈ code, c.toNat < 0x80) → Whole (Segment.code front) (Segment.code back)) := by
  have free := Fragment.free_of_parse cut
  have split : code = Segment.code front ++ (name ++ Segment.code back) := by
    have whole := Fragment.code_parse code
    rw [cut, Segment.code, List.flatMap_append, List.flatMap_cons] at whole
    exact whole.symm
  refine ⟨split, ⟨fun whole => ?_, whole_of_ascii free⟩, fun ascii => ?_⟩
  · rw [whole.nameAround_eq]
    intro c member
    exact (isWordChar_iff.mp (Lexeme.isWordChar_of_isPoint free.point c member)).2
  · refine whole_of_ascii free fun c member => ascii c ?_
    rw [split]
    exact mem_of_mem_nameAround member

/-- An accented letter beside, but not next to, a substitution point. -/
theorem whole_spaced :
    (Fragment.parse "é + _x".toList).segments =
        [.plain "é + ".toList] ++ .identifier ['_', 'x'] :: [] ∧
      Whole "é + ".toList [] := by
  have cut : (Fragment.parse "é + _x".toList).segments =
      [.plain "é + ".toList] ++ .identifier ['_', 'x'] :: [] := by decide +kernel
  have around : (nameAround "é + ".toList ['_', 'x'] []).all (·.toNat < 0x80) = true := by
    decide +kernel
  refine ⟨cut, (whole_iff_ascii cut).2.1.mpr fun c member => ?_⟩
  exact of_decide_eq_true (List.all_eq_true.mp around c member)

/-- A part of a name with an accented letter is replaced, after the letter and before it. -/
theorem not_whole_accented :
    (Fragment.parse "é_x".toList).segments = [.plain ['é'], .identifier ['_', 'x']] ∧
      ¬ Whole ['é'] [] ∧
      (Fragment.parse "é_x".toList).render (fun _ => some ['z']) = ['é', 'z'] ∧
      (Fragment.parse "_yé".toList).segments = [.identifier ['_', 'y'], .plain ['é']] ∧
      ¬ Whole [] ['é'] ∧
      (Fragment.parse "_yé".toList).render (fun _ => some ['z']) = ['z', 'é'] := by
  refine ⟨by decide +kernel, fun whole => ?_, by decide +kernel, by decide +kernel,
    fun whole => ?_, by decide +kernel⟩
  · exact absurd (whole.starts 'é' rfl) (by decide)
  · exact absurd (whole.stops 'é' rfl) (by decide)

end ComponentPack.Render
