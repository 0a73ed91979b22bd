import Mathlib
import ComponentPack.Proofs.Code.Reads
import ComponentPack.Proofs.Text.Bytewise

/-!
Regular expressions and the lines of the code. A regular expression is read up to a slash on its own
line, but a backslash hides what follows it, also the end of the line. So a slash that divides may
be taken for a regular expression that goes on in a later line, and then only there.
-/

set_option autoImplicit false

namespace ComponentPack.Code

open List Text

open Lexeme (regexTail? isWordChar classAfter)

/-- A line feed in a regular expression follows a backslash. -/
theorem escaped_of_regexTail? {inClass : Bool} {text span rest : Text}
    (found : regexTail? inClass text = some (span, rest)) (feed : '\n' ∈ span) :
    ['\\', '\n'] <:+: span := by
  fun_induction regexTail? inClass text generalizing span rest with
  | case1 => simp at found
  | case2 => simp at found
  | case3 inClass c tail ih =>
    obtain ⟨⟨after, left⟩, later, pair⟩ := Option.map_eq_some_iff.mp found
    cases pair
    rcases mem_cons.mp feed with same | feed
    · exact absurd same (by decide)
    · rcases mem_cons.mp feed with rfl | feed
      · exact ⟨[], after, rfl⟩
      · exact infix_cons (infix_cons (ih later feed))
  | case4 => simp at found
  | case5 inClass c tail _ _ closes =>
    cases found
    rcases mem_cons.mp feed with same | feed
    · exact absurd (same.trans closes.1) (by decide)
    · exact absurd (mem_takeWhile_imp feed) (by decide)
  | case6 inClass c tail _ line _ ih =>
    obtain ⟨⟨after, left⟩, later, pair⟩ := Option.map_eq_some_iff.mp found
    cases pair
    rcases mem_cons.mp feed with same | feed
    · exact absurd same.symm line
    · exact infix_cons (ih later feed)

theorem classAfter_wide (inClass : Bool) {c : Char} (wide : 0x80 ≤ c.toNat) :
    classAfter inClass c = inClass := by
  rw [classAfter, if_neg (ne_of_wide wide (by decide)), if_neg (ne_of_wide wide (by decide))]

/-- Characters outside of ASCII are passed over, and so are their bytes. -/
theorem regexTail?_append_wide (inClass : Bool) {run : Text} (outside : ∀ c ∈ run, 0x80 ≤ c.toNat)
    (text : Text) :
    regexTail? inClass (run ++ text) =
      (regexTail? inClass text).map fun found => (run ++ found.1, found.2) := by
  induction run with
  | nil => simp
  | cons c run ih =>
    rw [forall_mem_cons] at outside
    have other {d : Char} (ascii : d.toNat < 0x80) : c ≠ d := ne_of_wide outside.1 ascii
    rw [cons_append, Lexeme.regexTail?_plain (other (by decide)) (other (by decide))
      (fun slash => absurd slash (other (by decide))), classAfter_wide inClass outside.1,
      ih outside.2, Option.map_map]
    rfl

/-- The bytes of a text are read as its characters are. -/
theorem regexTail?_spread (inClass : Bool) (text : Text) :
    regexTail? inClass (Text.spread text) =
      (regexTail? inClass text).map fun found => (Text.spread found.1, Text.spread found.2) := by
  fun_induction regexTail? inClass text with
  | case1 inClass => rw [spread_nil]; rfl
  | case2 inClass => rw [spread_cons_ascii (by decide), spread_nil]; rfl
  | case3 inClass c rest ih =>
    rw [spread_cons_ascii (by decide), Option.map_map]
    by_cases narrow : c.toNat < 0x80
    · rw [spread_cons_ascii narrow, Lexeme.regexTail?_escape, ih, Option.map_map]
      congr 1
      funext found
      simp [spread_cons_ascii narrow, spread_cons_ascii (show '\\'.toNat < 0x80 by decide)]
    · -- The backslash hides the first byte only, but the others mean nothing either.
      obtain ⟨first, others, spreads, -, outside⟩ :=
        exists_spread_wide (Nat.le_of_not_lt narrow)
      rw [spread_cons, spreads, cons_append, Lexeme.regexTail?_escape,
        regexTail?_append_wide inClass (forall_mem_cons.mp outside).2, ih, Option.map_map,
        Option.map_map]
      congr 1
      funext found
      simp [spread_cons c found.1, spreads,
        spread_cons_ascii (show '\\'.toNat < 0x80 by decide)]
  | case4 inClass rest =>
    rw [spread_cons_ascii (by decide), regexTail?.eq_def]
    rfl
  | case5 inClass c rest _ _ closes =>
    obtain ⟨rfl, outside⟩ := closes
    obtain rfl : inClass = false := by simpa using outside
    have flags := @Text.takeWhile_spread isWordChar false (fun c wide => by
      by_contra inside
      have range := Lexeme.toNat_of_isWordChar (Bool.not_eq_false _ ▸ inside)
      omega) rest
    rw [spread_cons_ascii (by decide), Lexeme.regexTail?_slash, flags.1, flags.2]
    simp [spread_cons_ascii (show '/'.toNat < 0x80 by decide)]
  | case6 inClass c rest single line open_ ih =>
    have inner : c = '/' → inClass = true := by
      intro slash
      simpa [slash] using open_
    rw [Option.map_map]
    by_cases narrow : c.toNat < 0x80
    · rw [spread_cons_ascii narrow, Lexeme.regexTail?_plain single line inner, ih,
        Option.map_map]
      congr 1
      funext found
      simp [spread_cons_ascii narrow]
    · have wide := Nat.le_of_not_lt narrow
      obtain ⟨first, others, spreads, -, outside⟩ := exists_spread_wide wide
      rw [classAfter_wide inClass wide] at ih
      rw [classAfter_wide inClass wide, spread_cons,
        regexTail?_append_wide inClass (spreads ▸ outside), ih, Option.map_map]
      congr 1
      funext found
      simp [spread_cons c found.1]

/-- What is read after a slash is a body, the closing slash and all word characters after it, and
every such text is read. -/
theorem regexTail?_eq_some_iff {text span rest : Text} :
    regexTail? false text = some (span, rest) ↔
      text = span ++ rest ∧ ∃ body flags, span = body ++ '/' :: flags ∧ RegexBody body ∧
        (∀ c ∈ flags, isWordChar c = true) ∧ ∀ c ∈ rest.head?, isWordChar c = false := by
  constructor
  · intro found
    obtain ⟨body, flags, closed, whole, chars, stops⟩ := Lexeme.regexTail?_sound found
    exact ⟨Lexeme.eq_append_of_regexTail? found, body, flags, whole, closed, chars, stops⟩
  · rintro ⟨rfl, body, flags, rfl, closed, chars, stops⟩
    rw [append_assoc, cons_append, Lexeme.regexTail?_body closed,
      Lexeme.regexTail?_flags chars stops]
    rfl

/-- A slash is read alone, or opens a regular expression: a body in which a slash stands only after
a backslash or inside of brackets, the closing slash, and all word characters after it. It ends on
its line exactly if no backslash stands before a line feed in it. This holds of texts of bytes as
well, and the bytes of a text are read as its characters are. -/
theorem regexTail?_onLine_iff (text : Text) :
    (∀ span rest, regexTail? false text = some (span, rest) ↔
      text = span ++ rest ∧ ∃ body flags, span = body ++ '/' :: flags ∧ RegexBody body ∧
        (∀ c ∈ flags, isWordChar c = true) ∧ ∀ c ∈ rest.head?, isWordChar c = false) ∧
    (∀ span rest, regexTail? false text = some (span, rest) →
      ('\n' ∉ '/' :: span ↔ ¬ ['\\', '\n'] <:+: span)) ∧
    regexTail? false (Text.spread text) =
      (regexTail? false text).map fun found => (Text.spread found.1, Text.spread found.2) := by
  refine ⟨fun span rest => regexTail?_eq_some_iff, fun span rest found => ?_,
    regexTail?_spread false text⟩
  rw [List.mem_cons, not_or]
  constructor
  · intro single escaped
    exact single.2 (escaped.subset (by simp))
  · intro free
    exact ⟨by decide, fun feed => free (escaped_of_regexTail? found feed)⟩

/-- A slash in brackets and one after a backslash do not end a regular expression. -/
theorem regexTail?_onLine_bracketed :
    regexTail? false "[/é]\\//gi; _x".toList = some ("[/é]\\//gi".toList, "; _x".toList) ∧
      ('\n' ∉ '/' :: "[/é]\\//gi".toList ↔ ¬ ['\\', '\n'] <:+: "[/é]\\//gi".toList) ∧
      ¬ ['\\', '\n'] <:+: "[/é]\\//gi".toList := by
  have found : regexTail? false "[/é]\\//gi; _x".toList =
      some ("[/é]\\//gi".toList, "; _x".toList) := by decide +kernel
  exact ⟨found, (regexTail?_onLine_iff _).2.1 _ _ found, by decide +kernel⟩

/-- A division by a string that goes on in the next line, by a backslash at the end of the first: it
is read as a regular expression through the next slash, which hides the identifier between them. -/
theorem not_regexTail?_onLine :
    regexTail? false " \"\\\n4\" * _n / 2".toList =
        some (" \"\\\n4\" * _n /".toList, " 2".toList) ∧
      '\n' ∈ " \"\\\n4\" * _n /".toList ∧
      (Fragment.parse "i++ / \"\\\n4\" * _n / 2".toList).identifiers = [] ∧
      (Fragment.parse "i++ / \"\\\n4\" * _n".toList).identifiers = [['_', 'n']] := by
  decide +kernel

end ComponentPack.Code
