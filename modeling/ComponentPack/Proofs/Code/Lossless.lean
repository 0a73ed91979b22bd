import Mathlib
import ComponentPack.Code.Fragment
import ComponentPack.Proofs.Text.Occurrence

/-!
A fragment and the lexemes that it is made of. Gathering plain lexemes into segments changes
neither the identifiers nor what is rendered, and the lexemes put together are the code.
-/

set_option autoImplicit false

namespace ComponentPack.Code

open Lexeme

namespace Lexeme

/-- The name of a substitution point. -/
def identifier? : Lexeme → Option Text
  | identifier name => some name
  | _ => none

theorem eq_of_identifier? {lexeme : Lexeme} {name : Text} (point : lexeme.identifier? = some name) :
    lexeme = .identifier name := by
  cases lexeme <;> simp_all [identifier?]

/-- The text of a lexeme under a substitution; what has no substitute stays. -/
def render (substitute : Text → Option Text) : Lexeme → Text
  | identifier name => (substitute name).getD name
  | lexeme => lexeme.text

theorem render_none (lexeme : Lexeme) : lexeme.render (fun _ => none) = lexeme.text := by
  cases lexeme <;> rfl

theorem render_of_identifier?_eq_none {lexeme : Lexeme} (plain : lexeme.identifier? = none)
    (substitute : Text → Option Text) : lexeme.render substitute = lexeme.text := by
  cases lexeme <;> first | rfl | exact absurd plain (by simp [identifier?])

end Lexeme

namespace Segment

/-- A plain lexeme joins the text that follows it, and opens a text of its own otherwise. -/
theorem ofLexemes_cons_plain {lexeme : Lexeme} (plain : lexeme.identifier? = none)
    (lexemes : List Lexeme) :
    (∃ text segments, ofLexemes lexemes = .plain text :: segments ∧
      ofLexemes (lexeme :: lexemes) = .plain (lexeme.text ++ text) :: segments) ∨
    (∀ segment ∈ (ofLexemes lexemes).head?, segment.identifier? ≠ none) ∧
      ofLexemes (lexeme :: lexemes) = .plain lexeme.text :: ofLexemes lexemes := by
  cases lexeme with
  | identifier name => exact absurd plain (by simp [Lexeme.identifier?])
  | _ =>
    rcases following : ofLexemes lexemes with _ | ⟨text | name, segments⟩
    · exact .inr ⟨by simp, by simp [ofLexemes, following]⟩
    · exact .inl ⟨text, segments, rfl, by simp [ofLexemes, following]⟩
    · exact .inr ⟨by simp [identifier?], by simp [ofLexemes, following]⟩

theorem filterMap_ofLexemes (lexemes : List Lexeme) :
    (ofLexemes lexemes).filterMap identifier? = lexemes.filterMap Lexeme.identifier? := by
  induction lexemes with
  | nil => rfl
  | cons lexeme lexemes ih =>
    cases name : lexeme.identifier? with
    | some found =>
      obtain rfl := eq_of_identifier? name
      simp [ofLexemes, identifier?, Lexeme.identifier?, ih]
    | none =>
      rw [List.filterMap_cons_none name, ← ih]
      rcases ofLexemes_cons_plain name lexemes with ⟨text, segments, same, joined⟩ | ⟨-, apart⟩
      · rw [joined, same]
        rfl
      · rw [apart]
        rfl

theorem flatMap_ofLexemes (substitute : Text → Option Text) (lexemes : List Lexeme) :
    (ofLexemes lexemes).flatMap (render substitute) =
      lexemes.flatMap (Lexeme.render substitute) := by
  induction lexemes with
  | nil => rfl
  | cons lexeme lexemes ih =>
    rw [List.flatMap_cons, ← ih]
    cases name : lexeme.identifier? with
    | some found =>
      obtain rfl := eq_of_identifier? name
      rfl
    | none =>
      rw [render_of_identifier?_eq_none name]
      rcases ofLexemes_cons_plain name lexemes with ⟨text, segments, same, joined⟩ | ⟨-, apart⟩
      · rw [joined, same]
        simp [render]
      · rw [apart]
        rfl

end Segment

namespace Fragment

theorem identifiers_parse (code : Text) :
    (parse code).identifiers = (Lexeme.scan code).filterMap Lexeme.identifier? :=
  Segment.filterMap_ofLexemes _

theorem render_parse (code : Text) (substitute : Text → Option Text) :
    (parse code).render substitute = (Lexeme.scan code).flatMap (Lexeme.render substitute) :=
  Segment.flatMap_ofLexemes substitute _

end Fragment

namespace Lexeme

theorem next_append (before : Text) (c : Char) (rest : Text) :
    (next before c rest).1.text ++ (next before c rest).2 = c :: rest := by
  obtain ⟨span, spells, whole⟩ := exists_next before c rest
  rw [spells, List.cons_append, whole]

theorem scanFrom_cons (before : Text) (c : Char) (rest : Text) :
    scanFrom before (c :: rest) =
      (next before c rest).1 ::
        scanFrom ((next before c rest).1.text.reverse ++ before) (next before c rest).2 := by
  rw [scanFrom]

/-- The lexemes put together are the code. -/
theorem flatMap_text_scanFrom (before code : Text) :
    (scanFrom before code).flatMap text = code := by
  fun_induction scanFrom before code with
  | case1 => rfl
  | case2 before c rest found ih => rw [List.flatMap_cons, ih, next_append]

end Lexeme

/-- Without substitutes a fragment is the code that it was cut from. -/
theorem Fragment.source_parse (code : Text) : (parse code).source = code := by
  have plain : Lexeme.render (fun _ => none) = Lexeme.text := funext render_none
  rw [source, render_parse, plain]
  exact flatMap_text_scanFrom [] code

end ComponentPack.Code
