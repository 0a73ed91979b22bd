import ComponentPack.Proofs.Code.StringValue
import ComponentPack.Proofs.Module.Embedding

/-!
The literals of a module as script code reads them. What is written for a template is one string
literal, with the template as its value, line breaks turned into blanks (`read?_templateLiteral`).
What is written for a name is a literal with the name as its value, unless the name has a carriage
return: that is not escaped, and no literal may hold it (`read?_nameLiteral`).
-/

set_option autoImplicit false

namespace ComponentPack.Module

open Code Code.StringLiteral

variable {strict : Bool} {c : Char} {rest after text : Text}

/-- A character of the literal adds its code units to the value. -/
theorem body?_char {quote : Char} (inner : c ≠ quote) (single : c ≠ '\\')
    (inline : c ≠ '\n' ∧ c ≠ '\r') (read : body? strict quote rest = some (units text, after)) :
    body? strict quote (c :: rest) = some (units (c :: text), after) := by
  rw [body?_plain inner single inline, read]
  rfl

/-- An escaped character adds its code units to the value. -/
theorem body?_escaped {d : Char}
    (escape : escape? strict (c :: rest) = some (pointUnits d.toNat, rest))
    (read : body? strict '\'' rest = some (units text, after)) :
    body? strict '\'' ('\\' :: c :: rest) = some (units (d :: text), after) := by
  rw [body?_escape (by decide) escape, read]
  rfl

/-- A text with two blanks for each of its line breaks. -/
def blankBreaks : Text → Text
  | [] => []
  | '\r' :: '\n' :: rest => ' ' :: ' ' :: blankBreaks rest
  | '\n' :: rest => ' ' :: ' ' :: blankBreaks rest
  | c :: rest => c :: blankBreaks rest

/-- A line that goes on two blanks in the next one adds the two blanks. -/
theorem body?_continued (read : body? strict '\'' rest = some (units text, after)) :
    body? strict '\'' ('\\' :: '\n' :: ' ' :: ' ' :: rest) =
      some (units (' ' :: ' ' :: text), after) := by
  have blanks : body? strict '\'' (' ' :: ' ' :: rest) = some (units (' ' :: ' ' :: text), after) :=
    body?_char (by decide) (by decide) (by decide)
      (body?_char (by decide) (by decide) (by decide) read)
  have escape : escape? strict ('\n' :: ' ' :: ' ' :: rest) = some ([], ' ' :: ' ' :: rest) := rfl
  rw [body?_escape (by decide) escape, blanks]
  rfl

theorem body?_embedTrimmed (strict : Bool) (text after : Text) :
    body? strict '\'' (embedTrimmed text ++ '\'' :: after) =
      some (units (blankBreaks text), after) := by
  induction text using embedTrimmed.induct with
  | case1 => exact body?_quote strict '\'' after
  | case2 rest ih =>
    rw [embedTrimmed, blankBreaks]
    exact body?_continued ih
  | case3 c rest pair ih =>
    rw [embedTrimmed.eq_3 _ _ pair]
    by_cases feed : c = '\n'
    · subst feed
      rw [blankBreaks]
      exact body?_continued ih
    · have kept : blankBreaks (c :: rest) = c :: blankBreaks rest := by
        rw [blankBreaks]
        · exact pair
        · exact feed
      rw [kept]
      split_ifs with slash quote returns
      · subst slash
        exact body?_escaped rfl ih
      · subst quote
        exact body?_escaped rfl ih
      · subst returns
        exact body?_escaped rfl ih
      · exact body?_char quote slash ⟨feed, returns⟩ ih

/-- What a debug module has for a template. -/
def templateLiteral (template : Text) : Text :=
  '\'' :: ("\\\n  " ++ embed template ++ ['\''])

theorem read?_templateLiteral (strict : Bool) (template after : Text) :
    read? strict (templateLiteral template ++ after) =
      some (units ("  " ++ blankBreaks (Text.trim template)), after) := by
  have read := body?_continued (body?_embedTrimmed strict (Text.trim template) after)
  have shape : templateLiteral template ++ after =
      '\'' :: '\\' :: '\n' :: ' ' :: ' ' ::
        (embedTrimmed (Text.trim template) ++ '\'' :: after) := by
    simp [templateLiteral, embed]
  rw [shape, read?, if_pos (by simp)]
  exact read

theorem body_embed (template : Text) : Body '\'' ("\\\n  " ++ embed template) := by
  have read := read?_templateLiteral false template []
  rw [List.append_nil] at read
  obtain ⟨body, whole, form⟩ := Body.of_read? read
  rwa [List.append_cancel_right whole]

theorem renderLines_template (template : Text) :
    renderLines (.template template) =
      "  template: " ++ (templateLiteral template ++ ",\n") := by
  have opening : "  template: '\\" ++ ['\n'] ++ "  " =
      "  template: " ++ ('\'' :: "\\\n  ") := by decide
  have closing : "'," ++ ['\n'] = '\'' :: ",\n" := by decide
  simp only [renderLines, templateLines, line, templateLiteral, ← List.append_assoc, opening]
  simp only [List.append_assoc, List.cons_append, closing, List.nil_append]

/-- A debug module gives its template as one string literal, whatever the template is: inside of it
the quote, the backslash and the end of a line stand only after a backslash, and its end is the end
of what is written. Its value is the template without the blanks around it, after two blanks and
with two blanks for each line break. -/
theorem assemble_templateLiteral (runtime : Render.Runtime) (name template members : Text)
    (messages : Localization.Table) :
    (∃ before rest, assemble runtime name (.template template) members messages =
      before ++ ("  template: ".toList ++ (templateLiteral template ++ (",\n".toList ++ rest)))) ∧
    (∃ body, templateLiteral template = '\'' :: (body ++ ['\'']) ∧ Body '\'' body) ∧
    ∀ strict after, read? strict (templateLiteral template ++ after) =
      some (units ("  ".toList ++ blankBreaks (Text.trim template)), after) := by
  refine ⟨⟨openingLines runtime name (.template template) messages, closingLines members, ?_⟩,
    ⟨_, rfl, body_embed template⟩, fun strict after => read?_templateLiteral strict template after⟩
  rw [assemble_eq, renderLines_template]
  simp only [List.append_assoc]

/-- What a module has for the name of its component. -/
def nameLiteral (name : Text) : Text := '\'' :: escapeName name ++ ['\'']

theorem body?_escapeName_cons (other : c ≠ '\r') (strict : Bool) (name rest : Text) :
    body? strict '\'' (escapeName (c :: name) ++ rest) =
      (body? strict '\'' (escapeName name ++ rest)).map
        (Prod.map (pointUnits c.toNat ++ ·) id) := by
  rw [escapeName, List.flatMap_cons, ← escapeName, List.append_assoc]
  split_ifs with slash quote feed
  · subst slash
    exact body?_escape (by decide) rfl
  · subst quote
    exact body?_escape (by decide) rfl
  · subst feed
    exact body?_escape (by decide) rfl
  · exact body?_plain quote slash ⟨feed, other⟩ strict _

theorem body?_escapeName (strict : Bool) (name after : Text) :
    body? strict '\'' (escapeName name ++ '\'' :: after) =
      if '\r' ∈ name then none else some (units name, after) := by
  induction name with
  | nil => exact body?_quote strict '\'' after
  | cons c name ih =>
    by_cases returns : c = '\r'
    · subst returns
      rw [if_pos List.mem_cons_self]
      exact body?_break (by decide) (.inr rfl) strict _
    · have member : '\r' ∈ c :: name ↔ '\r' ∈ name := by simp [Ne.symm returns]
      rw [body?_escapeName_cons returns, ih]
      simp only [member]
      split <;> rfl

theorem read?_nameLiteral (strict : Bool) (name after : Text) :
    read? strict (nameLiteral name ++ after) =
      if '\r' ∈ name then none else some (units name, after) := by
  have shape : nameLiteral name ++ after = '\'' :: (escapeName name ++ '\'' :: after) := by
    simp [nameLiteral]
  rw [shape, read?, if_pos (by simp), body?_escapeName]

/-- A module registers its component under a string literal and repeats the literal as its name. The
value of the literal is the name, if that has no carriage return; otherwise there is no literal. -/
theorem assemble_nameLiterals (runtime : Render.Runtime) (name : Text) (attachment : Attachment)
    (members : Text) (messages : Localization.Table) :
    (∃ rest, assemble runtime name attachment members messages =
      runtime.register ++ ("(".toList ++ (nameLiteral name ++ (", \x7b\n  name: ".toList ++
        (nameLiteral name ++ (",\n".toList ++ rest)))))) ∧
    ∀ strict after, read? strict (nameLiteral name ++ after) =
      if '\r' ∈ name then none else some (units name, after) := by
  refine ⟨?_, fun strict after => read?_nameLiteral strict name after⟩
  have before : "('".toList = "(".toList ++ ['\''] := by decide
  have between : "', \x7b".toList ++ (['\n'] ++ "  name: '".toList) =
      ['\''] ++ (", \x7b\n  name: ".toList ++ ['\'']) := by decide
  have behind : "',".toList ++ ['\n'] = ['\''] ++ ",\n".toList := by decide
  obtain ⟨rest, whole⟩ : ∃ rest, assemble runtime name attachment members messages =
      line (runtime.register ++ "('".toList ++ escapeName name ++ "', \x7b".toList) ++
        (line ("  name: '".toList ++ escapeName name ++ "',".toList) ++ rest) :=
    ⟨_, by simp only [assemble, List.append_assoc]; rfl⟩
  refine ⟨rest, ?_⟩
  calc assemble runtime name attachment members messages
      = runtime.register ++ ("('".toList ++ (escapeName name ++
          (("', \x7b".toList ++ (['\n'] ++ "  name: '".toList)) ++ (escapeName name ++
            (("',".toList ++ ['\n']) ++ rest))))) := by
        rw [whole]
        simp only [line, List.append_assoc]
    _ = _ := by
        rw [before, between, behind]
        simp only [nameLiteral, List.append_assoc, List.cons_append, List.nil_append]

theorem not_read?_nameLiteral_return :
    read? false (nameLiteral "a\rb".toList) ≠ some (units "a\rb".toList, []) := by
  have read := read?_nameLiteral false "a\rb".toList []
  rw [List.append_nil, if_pos (by decide)] at read
  rw [read]
  exact (Option.some_ne_none _).symm

end ComponentPack.Module
