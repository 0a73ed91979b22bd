import ComponentPack.Proofs.Code.Reads

/-!
The literals of code: the string and template literals that the scanner finds and that have their
closing quote. They stand in the code one after the other, apart from each other (`woven_literals`),
and each is told by its quotes (`form_of_mem_literals`).
-/

set_option autoImplicit false

namespace ComponentPack

open List

namespace Text

/-- The parts stand in the text, in their order, and do not overlap. -/
inductive Woven : List Text → Text → Prop where
  | nil (text : Text) : Woven [] text
  | cons (gap part : Text) {parts : List Text} {rest : Text} (later : Woven parts rest) :
      Woven (part :: parts) (gap ++ (part ++ rest))

namespace Woven

variable {parts parts' : List Text} {text text' : Text}

theorem prepend (front : Text) (woven : Woven parts text) : Woven parts (front ++ text) := by
  cases woven with
  | nil => exact .nil _
  | cons gap part later =>
    rw [← append_assoc]
    exact .cons (front ++ gap) part later

theorem append (first : Woven parts text) (second : Woven parts' text') :
    Woven (parts ++ parts') (text ++ text') := by
  induction first with
  | nil text => exact second.prepend text
  | cons gap part _ ih =>
    rw [append_assoc, append_assoc]
    exact .cons gap part ih

theorem append_right (woven : Woven parts text) (more : Text) : Woven parts (text ++ more) := by
  have both := woven.append (.nil more)
  rwa [append_nil] at both

theorem infix_of_mem (woven : Woven parts text) {part : Text} (member : part ∈ parts) :
    part <:+: text := by
  induction woven with
  | nil => cases member
  | cons gap first _ ih =>
    rcases mem_cons.mp member with rfl | later
    · exact ⟨gap, _, append_assoc gap part _⟩
    · exact infix_append_of_infix_right (infix_append_of_infix_right (ih later))

/-- A last character that ends none of the parts can be left out. -/
theorem of_concat {c : Char} (woven : Woven parts (text ++ [c]))
    (ends : ∀ part ∈ parts, ∃ d, part.getLast? = some d ∧ d ≠ c) : Woven parts text := by
  generalize whole : text ++ [c] = longer at woven
  induction woven generalizing text with
  | nil => exact .nil text
  | cons gap part later ih =>
    rename_i parts rest
    obtain ⟨d, last, other⟩ := ends part mem_cons_self
    rcases eq_nil_or_concat' rest with rfl | ⟨front, e, rfl⟩
    · have same := congrArg List.getLast? whole
      rw [append_nil, List.getLast?_concat, List.getLast?_append, last] at same
      exact absurd (Option.some.inj same).symm other
    · rw [← append_assoc part, ← append_assoc gap] at whole
      obtain ⟨rfl, single⟩ := append_inj' whole rfl
      refine .cons gap part (ih (fun part member => ends part (mem_cons_of_mem _ member)) ?_)
      rw [single]

end Woven

end Text

namespace Code

namespace Lexeme

/-- Whether a literal has its closing quote; the text after its opening quote is given. -/
def closes (quote : Char) : Text → Bool
  | [] => false
  | c :: rest =>
    if c = quote then true
    else if c = '\\' then
      match rest with
      | [] => false
      | _ :: rest => closes quote rest
    else closes quote rest

/-- The text of a literal that has its closing quote. -/
def literal? : Lexeme → Option Text
  | quoted (quote :: tail) => if closes quote tail then some (quote :: tail) else none
  | _ => none

theorem text_of_literal? {lexeme : Lexeme} {literal : Text}
    (found : lexeme.literal? = some literal) : lexeme.text = literal := by
  unfold literal? at found
  split at found
  · split at found
    · exact Option.some.inj found
    · cases found
  · cases found

theorem body_of_closes {quote : Char} (single : quote ≠ '\\') {text : Text}
    (closed : closes quote text = true) :
    ∃ body, LiteralBody quote body ∧ (literalTail quote text).1 = body ++ [quote] := by
  fun_induction closes quote text with
  | case1 | case3 => cases closed
  | case2 rest =>
    rw [literalTail_quote]
    exact ⟨[], .done, rfl⟩
  | case4 c rest _ ih =>
    obtain ⟨body, inside, same⟩ := ih closed
    rw [literalTail_escape single, same]
    exact ⟨'\\' :: c :: body, .escaped c inside, rfl⟩
  | case5 c rest inner plain ih =>
    obtain ⟨body, inside, same⟩ := ih closed
    rw [literalTail_plain inner plain, same]
    exact ⟨c :: body, .plain inner plain inside, rfl⟩

/-- A lexeme that has been cut off stands somewhere. -/
theorem reads_of_mem_scanFrom {before code : Text} {lexeme : Lexeme}
    (member : lexeme ∈ scanFrom before code) : ∃ front rest, Reads front lexeme rest := by
  fun_induction scanFrom before code with
  | case1 => cases member
  | case2 before c rest found ih =>
    rcases mem_cons.mp member with rfl | later
    · exact ⟨before, found.2, reads_next before c rest⟩
    · exact ih later

end Lexeme

/-- The literals of code that have their closing quotes, in order. -/
def literals (code : Text) : List Text := (Lexeme.scan code).filterMap Lexeme.literal?

theorem woven_literals (code : Text) : Text.Woven (literals code) code := by
  have each (lexemes : List Lexeme) :
      Text.Woven (lexemes.filterMap Lexeme.literal?) (lexemes.flatMap Lexeme.text) := by
    induction lexemes with
    | nil => exact .nil _
    | cons lexeme lexemes ih =>
      rw [flatMap_cons]
      cases found : lexeme.literal? with
      | none =>
        rw [filterMap_cons_none found]
        exact ih.prepend lexeme.text
      | some literal =>
        rw [filterMap_cons_some found, Lexeme.text_of_literal? found]
        exact .cons [] literal ih
  have whole := each (Lexeme.scan code)
  rwa [Lexeme.scan, Lexeme.flatMap_text_scanFrom] at whole

theorem form_of_mem_literals {code literal : Text} (member : literal ∈ literals code) :
    ∃ quote body, isQuote quote = true ∧ LiteralBody quote body ∧
      literal = quote :: (body ++ [quote]) := by
  obtain ⟨lexeme, among, found⟩ := mem_filterMap.mp member
  obtain ⟨front, rest, reads⟩ := Lexeme.reads_of_mem_scanFrom among
  cases reads with
  | @literal quote body opens closed rest =>
    obtain rfl := Lexeme.text_of_literal? found
    exact ⟨quote, body, opens, closed, rfl⟩
  | @openLiteral quote body opens endless =>
    -- The scanner has come to the end of the code, with the closing quote or without.
    have closed : Lexeme.closes quote body = true := by
      by_contra unclosed
      simp [Lexeme.literal?, unclosed] at found
    have single : quote ≠ '\\' := by
      rintro rfl
      exact absurd opens (by decide)
    obtain ⟨inner, inside, same⟩ := Lexeme.body_of_closes single closed
    rw [endless] at same
    obtain rfl := Lexeme.text_of_literal? found
    exact ⟨quote, inner, opens, inside, congrArg (quote :: ·) same⟩
  | word begins chars stops form =>
    have plain : lexeme.literal? = none := by
      rw [form, Lexeme.ofWord]
      split <;> rfl
    rw [plain] at found
    cases found
  | line | block | openBlock | regex | slash | number | symbol => cases found

end Code

end ComponentPack
