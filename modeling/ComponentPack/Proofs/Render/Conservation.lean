import Mathlib
import ComponentPack.Proofs.Code.Lossless
import ComponentPack.Proofs.Text.Blanks
import ComponentPack.Render.Artifact

/-!
What reading compiled render code keeps. The code is divided by the first occurrences of two markers.
Whatever its lines look like, the declarations are, blanks aside, the text between the markers, and
the render function is the text after the second one (`parse_conserves`).
-/

set_option autoImplicit false

namespace ComponentPack.Render

open Code List Text

/-- The text between the first import marker, or the beginning of the code, and the first render
marker, and the text after the render marker. -/
inductive Divided : Text → Text → Text → Prop where
  | bare (between tail : Text) (first : ¬ renderMarker <:+: between)
      (unimported : ¬ importMarker <:+: between) :
      Divided (between ++ (renderMarker ++ tail)) between tail
  | importing (clause between tail : Text)
      (first : ¬ renderMarker <:+: clause ++ (importMarker ++ between))
      (firstImport : ¬ importMarker <:+: clause) :
      Divided (clause ++ (importMarker ++ between) ++ (renderMarker ++ tail)) between tail

theorem cut?_renderMarker {head : Text} (tail : Text) (first : ¬ renderMarker <:+: head) :
    Text.cut? renderMarker (head ++ (renderMarker ++ tail)) = some (head, tail) :=
  cut?_append_of_borderless tail (borderless_of_take_ne (by decide)) (by decide) first

theorem cut?_importMarker {clause : Text} (rest : Text) (first : ¬ importMarker <:+: clause) :
    Text.cut? importMarker (clause ++ (importMarker ++ rest)) = some (clause, rest) :=
  cut?_append_of_borderless rest (borderless_of_take_ne (by decide)) (by decide) first

theorem cut?_eq_none_iff {phrase text : Text} : Text.cut? phrase text = none ↔ ¬ phrase <:+: text := by
  rw [← Text.contains_iff_infix, Text.contains, Option.not_isSome_iff_eq_none]

/-- Code is divided if it has the render marker. -/
theorem exists_divided {code : Text} (marked : renderMarker <:+: code) :
    ∃ between tail, Divided code between tail := by
  cases cut : Text.cut? renderMarker code with
  | none => exact absurd marked (cut?_eq_none_iff.mp cut)
  | some parts =>
    obtain ⟨head, tail⟩ := parts
    obtain ⟨rfl, first⟩ := (cut?_eq_some_iff (by decide)).mp cut
    have first : ¬ renderMarker <:+: head := mt infix_append_of_infix_left first
    cases cut : Text.cut? importMarker head with
    | none => exact ⟨head, tail, .bare head tail first (cut?_eq_none_iff.mp cut)⟩
    | some parts =>
      obtain ⟨clause, between⟩ := parts
      obtain ⟨rfl, firstImport⟩ := (cut?_eq_some_iff (by decide)).mp cut
      exact ⟨between, tail, .importing clause between tail first
        (mt infix_append_of_infix_left firstImport)⟩

/-- Code that is accepted is read part by part. -/
theorem Divided.parts_of_parse {code between tail : Text} (divided : Divided code between tail)
    {artifact : Artifact} (parsed : Artifact.parse code = .ok artifact) :
    artifact.constants = Declaration.parseBlock (Artifact.constantsBlock between) ∧
      artifact.render = Fragment.parse ("render" ++ trimEnd tail) := by
  cases divided with
  | bare _ _ first unimported =>
    simp only [Artifact.parse, cut?_renderMarker tail first, cut?_eq_none_iff.mpr unimported,
      Except.ok.injEq] at parsed
    subst parsed
    exact ⟨rfl, rfl⟩
  | importing clause _ _ first firstImport =>
    simp only [Artifact.parse, cut?_renderMarker tail first, cut?_importMarker between firstImport]
      at parsed
    split at parsed
    · cases parsed
    · cases parsed
      exact ⟨rfl, rfl⟩

theorem parse_eq_missingRender_iff (code : Text) :
    Artifact.parse code = .error .missingRender ↔ ¬ renderMarker <:+: code := by
  rw [← cut?_eq_none_iff, Artifact.parse]
  split
  · next cut => simp only [cut]
  · next cut =>
    simp only [cut, reduceCtorEq, iff_false]
    split
    · exact fun absurd => nomatch absurd
    · split
      · next cause =>
        rintro ⟨⟩
        rw [Import.parseClause] at cause
        split at cause <;> cases cause
      · exact fun absurd => nomatch absurd

namespace Declaration

theorem flatten_groupAfter (current lines : List Text) :
    (groupAfter current lines).flatten = current ++ lines := by
  fun_induction groupAfter current lines with
  | case1 current => rw [flatten_singleton, append_nil]
  | case2 current line lines begins ih => rw [flatten_cons, ih, singleton_append]
  | case3 current line lines continues ih => rw [ih, append_assoc, singleton_append]

theorem flatten_group (lines : List Text) : (group lines).flatten = lines := by
  cases lines with
  | nil => rfl
  | cons line lines => exact flatten_groupAfter [line] lines

/-- A statement is dropped only if there is nothing to see of it. -/
theorem flatMap_statements {β : Type} {f : Text → List β} (empty : f [] = []) (block : Text) :
    (statements block).flatMap f =
      (group (lines block)).flatMap fun lines => f (trim (joinLines lines)) := by
  rw [statements]
  induction group (lines block) with
  | nil => rfl
  | cons lines groups ih =>
    rw [map_cons, filter_cons, flatMap_cons, ← ih]
    split
    · rw [flatMap_cons]
    · next dropped =>
      have nothing : trim (joinLines lines) = [] := by simpa using dropped
      rw [nothing, empty, nil_append]

theorem flatMap_visible_statements (block : Text) :
    (statements block).flatMap visible = visible block := by
  calc (statements block).flatMap visible
      = (group (lines block)).flatMap fun lines => lines.flatMap visible := by
        have nothing : visible [] = [] := rfl
        simp only [flatMap_statements nothing, visible_trim, visible_joinLines]
    _ = (lines block).flatMap visible := by
        conv_rhs => rw [← flatten_group (lines block), ← flatMap_id, flatMap_assoc]
        rfl
    _ = visible block := flatMap_visible_lines block

end Declaration

/-- A text without the semicolon that may begin it. -/
def dropSemicolon : Text → Text
  | ';' :: rest => rest
  | text => text

theorem dropSemicolon_cons {c : Char} (other : c ≠ ';') (text : Text) :
    dropSemicolon (c :: text) = c :: text := by
  rw [dropSemicolon]
  rintro rest ⟨⟩
  exact other rfl

theorem constantsBlock_eq (text : Text) :
    Artifact.constantsBlock text = dropSemicolon (trim text) := rfl

/-- The semicolon that is left out of the block of declarations is the first character that is no
blank. -/
theorem visible_constantsBlock (text : Text) :
    visible (Artifact.constantsBlock text) = dropSemicolon (visible text) := by
  obtain ⟨-, -, -, -, -, trimmed⟩ := exists_trim text
  rw [constantsBlock_eq, ← visible_trim text]
  cases equal : trim text with
  | nil => rfl
  | cons c rest =>
    have shown : isBlank c = false := trimmed.1 c (equal ▸ rfl)
    rw [visible_cons shown]
    by_cases semicolon : c = ';'
    · subst semicolon
      rfl
    · rw [dropSemicolon_cons semicolon, dropSemicolon_cons semicolon, visible_cons shown]

theorem source_parseBlock (block : Text) :
    (Declaration.parseBlock block).flatMap (·.code.source) = (Declaration.statements block).flatten := by
  rw [Declaration.parseBlock, flatMap_map, ← flatMap_id]
  exact flatMap_congr fun statement _ => Fragment.source_parse statement

/-- Reading loses, doubles and moves nothing. Code is refused for want of the render function exactly
if it does not have the marker. Code that is accepted is divided by the markers; its declarations,
one after the other, have all characters of the part between the markers but blanks and a semicolon
at its beginning, and its render function is the part after the render marker without the blanks at
its end. -/
theorem parse_conserves (code : Text) :
    (Artifact.parse code = .error .missingRender ↔ ¬ renderMarker <:+: code) ∧
    ∀ artifact, Artifact.parse code = .ok artifact →
      (∃ between tail, Divided code between tail) ∧
      ∀ between tail, Divided code between tail →
        Text.visible (artifact.constants.flatMap (·.code.source)) =
          dropSemicolon (Text.visible between) ∧
        artifact.render.source = "render".toList ++ Text.trimEnd tail := by
  refine ⟨parse_eq_missingRender_iff code, fun artifact parsed => ⟨?_, ?_⟩⟩
  · refine exists_divided (not_not.mp fun absent => ?_)
    rw [(parse_eq_missingRender_iff code).mpr absent] at parsed
    cases parsed
  · intro between tail divided
    obtain ⟨constants, render⟩ := divided.parts_of_parse parsed
    refine ⟨?_, by rw [render, Fragment.source_parse]⟩
    calc Text.visible (artifact.constants.flatMap (·.code.source))
        = (Declaration.statements (Artifact.constantsBlock between)).flatMap Text.visible := by
          rw [constants, source_parseBlock, Text.visible, List.filter_flatten]
          rfl
      _ = dropSemicolon (Text.visible between) := by
          rw [Declaration.flatMap_visible_statements, visible_constantsBlock]

/-- The constants of `wrappedCode`, with line ends of two kinds and a line that belongs to the
statement before it. -/
def wrappedConstants : Text := "\r\n; const _a = 1 +\r\n\r\n  2\nconst _b = _a\r\n"

/-- Render code with an import and constants. -/
def wrappedCode : Text :=
  "import \x7b h as _h \x7d " ++ (importMarker ++ wrappedConstants) ++
    (renderMarker ++ "() \x7b\x7d \n")

theorem divided_wrappedCode :
    Divided wrappedCode wrappedConstants "() \x7b\x7d \n" :=
  .importing _ _ _ (mt Text.contains_iff_infix.mpr (by decide +kernel))
    (mt Text.contains_iff_infix.mpr (by decide +kernel))

theorem parse_conserves_wrapped :
    ∃ artifact, Artifact.parse wrappedCode = .ok artifact ∧
      Text.visible (artifact.constants.flatMap (·.code.source)) = "const_a=1+2const_b=_a".toList ∧
      artifact.render.source = "render() \x7b\x7d".toList := by
  have accepted : (Artifact.parse wrappedCode).toOption.isSome = true := by decide +kernel
  cases parsed : Artifact.parse wrappedCode with
  | error cause => exact absurd (parsed ▸ accepted) (by simp [Except.toOption])
  | ok artifact =>
    obtain ⟨constants, render⟩ :=
      ((parse_conserves wrappedCode).2 artifact parsed).2 _ _ divided_wrappedCode
    exact ⟨artifact, rfl, constants.trans (by decide +kernel), render.trans (by decide +kernel)⟩

end ComponentPack.Render
