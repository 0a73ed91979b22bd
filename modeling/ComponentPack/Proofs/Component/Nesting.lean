import ComponentPack.Proofs.Component.Tags

/-!
Reading the content of a template. Each node of a markup tree leads the reader from a depth back to
the same depth and is kept as it is written; an inner template goes one deeper at its opening tag
and back at its close tag, so that only the close tag of the section itself ends it.
-/

set_option autoImplicit false

namespace ComponentPack

namespace Component

open Document List

namespace Piece

variable {name : Text}

theorem read?_of_tag {c : Char} {tail after : Text} {tag : OpenTag} (letter : c.isAlpha = true)
    (read : OpenTag.read? (c :: tail) = some (tag, after))
    (harmless : CloseTag.beginsIn name tag.written = false) :
    Piece.read? name '<' (c :: tail) =
      some (if tag.name = name ∧ !tag.selfClosing then .opening tag.written else .plain tag.written,
        after) := by
  have not_slash : c ≠ '/' := by
    rintro rfl
    exact absurd letter (by decide)
  rw [Piece.read?, if_pos rfl, atAngle, CloseTag.read?_eq_none_of_ne not_slash]
  · simp only [read, harmless, Bool.false_eq_true, if_false]
    split <;> rfl
  · intro body start
    obtain ⟨rfl, -⟩ := List.cons.inj start
    exact absurd letter (by decide)

theorem read?_closing (closing : Closing) (key : closing.key = name) (rest : Text) :
    Piece.read? name '<' ('/' :: closing.name.text ++ closing.gap.text ++ ['>'] ++ rest) =
      some (.closing closing.print, rest) := by
  have read := CloseTag.read?_print closing key rest
  simp only [Closing.print, cons_append] at read ⊢
  rw [Piece.read?, if_pos rfl, atAngle, read]
  intro body start
  simp at start

theorem read?_foreign (closing : Closing) (key : closing.key ≠ name)
    (named : ∀ c ∈ name, OpenTag.isNameChar c = true) (rest : Text) :
    Piece.read? name '<' ('/' :: closing.name.text ++ closing.gap.text ++ ['>'] ++ rest) =
      some (.plain ['<'], '/' :: closing.name.text ++ closing.gap.text ++ ['>'] ++ rest) := by
  have read := CloseTag.read?_print_eq_none closing key named rest
  have no_tag (tail : Text) : OpenTag.read? ('/' :: tail) = none := by
    have empty : ('/' :: tail).takeWhile OpenTag.isNameChar = [] :=
      takeWhile_cons_of_neg (by decide)
    simp only [OpenTag.read?, empty, List.head?_nil]
  simp only [Closing.print, cons_append] at read ⊢
  rw [Piece.read?, if_pos rfl, atAngle, read, no_tag]
  intro body start
  simp at start

end Piece

namespace Block

theorem commentBody?_append {body : Text} (closed : ¬ "-->" <:+: body) (rest : Text) :
    commentBody? (body ++ ("-->" ++ rest)) = some (body, rest) :=
  Text.cut?_append_of_borderless rest (Text.borderless_of_take_ne (by decide)) (by decide) closed

theorem nestedContent_cons {name rest after : Text} {c : Char} {piece : Piece} {depth next : Nat}
    (read : Piece.read? name c rest = some (piece, after))
    (deeper : piece.depthAfter? depth = some next) (start offset : Nat) :
    nestedContent name start depth offset (c :: rest) =
      (nestedContent name start next (offset + Text.byteSize piece.span) after).map
        fun (content, found) => (piece.span ++ content, found) := by
  rw [nestedContent]
  split
  · next missing => simp [read] at missing
  · next other beyond found =>
    rw [read, Option.some.injEq, Prod.mk.injEq] at found
    obtain ⟨rfl, rfl⟩ := found
    rw [deeper]
    dsimp only
    cases nestedContent name start next (offset + Text.byteSize piece.span) after <;> rfl

theorem nestedContent_closing {name rest after : Text} {c : Char} {piece : Piece}
    (read : Piece.read? name c rest = some (piece, after))
    (ends : piece.depthAfter? 0 = none) (start offset : Nat) :
    nestedContent name start 0 offset (c :: rest) = .ok ([], piece.span, after) := by
  rw [nestedContent]
  split
  · next missing => simp [read] at missing
  · next other beyond found =>
    rw [read, Option.some.injEq, Prod.mk.injEq] at found
    obtain ⟨rfl, rfl⟩ := found
    rw [ends]

/-- The reader goes over a span from one depth to another, whatever follows, and keeps the span. -/
def Passes (name : Text) (depth : Nat) (span : Text) (next : Nat) : Prop :=
  ∀ (start offset : Nat) (rest : Text),
    nestedContent name start depth offset (span ++ rest) =
      (nestedContent name start next (offset + Text.byteSize span) rest).map
        fun (content, found) => (span ++ content, found)

namespace Passes

variable {name : Text} {depth : Nat}

theorem nil : Passes name depth [] depth := by
  intro start offset rest
  cases found : nestedContent name start depth offset rest <;>
    simp [Text.byteSize, found, Except.map]

theorem append {a b : Text} {next last : Nat} (first : Passes name depth a next)
    (second : Passes name next b last) : Passes name depth (a ++ b) last := by
  intro start offset rest
  rw [append_assoc, first, second, Text.byteSize_append, Nat.add_assoc]
  cases nestedContent name start last (offset + (Text.byteSize a + Text.byteSize b)) rest with
  | error e => rfl
  | ok found => simp [Except.map]

/-- One piece, which is read whatever follows it. -/
theorem of_piece (piece : Piece) {c : Char} {tail : Text} {next : Nat}
    (span : piece.span = c :: tail)
    (read : ∀ rest, Piece.read? name c (tail ++ rest) = some (piece, rest))
    (deeper : piece.depthAfter? depth = some next) : Passes name depth (c :: tail) next := by
  intro start offset rest
  rw [cons_append, nestedContent_cons (read rest) deeper, span]

theorem of_char {c : Char} (not_angle : c ≠ '<') (not_brace : c ≠ '\x7b') :
    Passes name depth [c] depth := by
  refine of_piece (.plain [c]) rfl (fun rest => ?_) rfl
  simp [Piece.read?, not_angle, not_brace]

theorem of_text {text : Text} (plain : ∀ c ∈ text, c ≠ '<' ∧ c ≠ '\x7b') :
    Passes name depth text depth := by
  induction text with
  | nil => exact nil
  | cons c text ih =>
    have first : Passes name depth [c] depth :=
      of_char (plain c mem_cons_self).1 (plain c mem_cons_self).2
    exact first.append (ih fun d member => plain d (mem_cons_of_mem c member))

theorem comment {body : Text} (closed : ¬ "-->" <:+: body) :
    Passes name depth ("<!--" ++ body ++ "-->") depth := by
  refine of_piece (.plain ("<!--" ++ body ++ "-->")) rfl (fun rest => ?_) rfl
  have shape : ['!', '-', '-'] ++ body ++ "-->" ++ rest =
      '!' :: '-' :: '-' :: (body ++ ("-->" ++ rest)) := by simp
  have cut := commentBody?_append closed rest
  change Piece.read? name '<' (['!', '-', '-'] ++ body ++ "-->" ++ rest) = _
  rw [shape, Piece.read?, if_pos rfl]
  simp only [Piece.atAngle, cut, Option.map_some]

/-- Double braces whose first end is the one that is written last. -/
theorem braces {expression : Text} (first : ¬ ['\x7d', '\x7d'] <:+: expression ++ ['\x7d'])
    (inside : ClosesNoTemplate expression) :
    Passes Section.template.tag depth (['\x7b', '\x7b'] ++ expression ++ ['\x7d', '\x7d'])
      depth := by
  refine of_piece (.plain (['\x7b', '\x7b'] ++ expression ++ ['\x7d', '\x7d'])) rfl
    (fun rest => ?_) rfl
  have shape : ['\x7b'] ++ expression ++ ['\x7d', '\x7d'] ++ rest =
      '\x7b' :: (expression ++ (['\x7d', '\x7d'] ++ rest)) := by simp
  have cut : Text.cut? ['\x7d', '\x7d'] (expression ++ (['\x7d', '\x7d'] ++ rest)) =
      some (expression, rest) := Text.cut?_append rest first
  change Piece.read? Section.template.tag '\x7b'
    (['\x7b'] ++ expression ++ ['\x7d', '\x7d'] ++ rest) = _
  rw [shape, Piece.read?, if_neg (by decide), if_pos rfl]
  simp only [Piece.atBrace, cut, Opening.beginsIn_eq_false inside, Bool.false_eq_true, if_false]

/-- An expression that ends in a brace of its own leaves the last brace behind as text. -/
theorem interpolation {expression : Text} (closed : ¬ ['\x7d', '\x7d'] <:+: expression)
    (inside : ClosesNoTemplate expression) :
    Passes Section.template.tag depth (['\x7b', '\x7b'] ++ expression ++ ['\x7d', '\x7d'])
      depth := by
  rcases eq_nil_or_concat' expression with rfl | ⟨front, last, rfl⟩
  · exact braces (by decide) inside
  · by_cases brace : last = '\x7d'
    · subst brace
      have shorter : ClosesNoTemplate front := by
        intro occurs
        apply inside
        rw [lower_append]
        exact infix_append_of_infix_left occurs
      have behind : Passes Section.template.tag depth ['\x7d'] depth :=
        of_char (by decide) (by decide)
      simpa using (braces closed shorter).append behind
    · refine braces (fun occurs => ?_) inside
      rcases infix_concat_iff.mp occurs with ends | within
      · rcases suffix_concat_iff.mp ends with empty | ⟨before, split, tail⟩
        · simp at empty
        · obtain rfl : before = ['\x7d'] := by
            have lengths := congrArg List.dropLast split
            simpa using lengths.symm
          have same : '\x7d' = last := by simpa using tail
          exact brace same.symm
      · exact closed within

theorem inner (tag : Opening) (harmless : tag.Harmless) (key : tag.key = Section.template.tag) :
    Passes Section.template.tag depth tag.print (depth + 1) := by
  refine of_piece (.opening tag.print) rfl (fun rest => ?_) rfl
  have read := Piece.read?_of_tag tag.name.letter (OpenTag.read?_print tag rest) harmless.print
  simpa [key, Opening.print, TagName.text] using read

theorem flat (tag : Opening) (harmless : tag.Harmless) (key : tag.key ≠ Section.template.tag) :
    Passes Section.template.tag depth tag.print depth := by
  refine of_piece (.plain tag.print) rfl (fun rest => ?_) rfl
  have read := Piece.read?_of_tag tag.name.letter (OpenTag.read?_print tag rest) harmless.print
  simpa [key, Opening.print, TagName.text] using read

theorem empty (tag : Opening) (harmless : tag.Harmless) :
    Passes Section.template.tag depth tag.printEmpty depth := by
  refine of_piece (.plain tag.printEmpty) rfl (fun rest => ?_) rfl
  have read := Piece.read?_of_tag tag.name.letter (OpenTag.read?_printEmpty tag rest)
    harmless.printEmpty
  simpa [Opening.printEmpty, TagName.text] using read

theorem outer (closing : Closing) (key : closing.key = name) :
    Passes name (depth + 1) closing.print depth :=
  of_piece (.closing closing.print) rfl (Piece.read?_closing closing key) rfl

/-- The close tag of another element is text. -/
theorem foreign (closing : Closing) (key : closing.key ≠ Section.template.tag) :
    Passes Section.template.tag depth closing.print depth := by
  intro start offset rest
  have named := isNameChar_of_mem_tag .template
  have plain : ∀ c ∈ '/' :: closing.name.text ++ closing.gap.text ++ ['>'],
      c ≠ '<' ∧ c ≠ '\x7b' := by
    intro c member
    constructor <;> rintro rfl
    · exact closing.not_mem_tail (by decide) (by decide) (by decide) (by decide) member
    · exact closing.not_mem_tail (by decide) (by decide) (by decide) (by decide) member
  have behind : Passes Section.template.tag depth
      ('/' :: closing.name.text ++ closing.gap.text ++ ['>']) depth := of_text plain
  have angle := nestedContent_cons (Piece.read?_foreign closing key named rest)
    (show (Piece.plain ['<']).depthAfter? depth = some depth from rfl) start offset
  have sizes : offset + Text.byteSize (Piece.plain ['<']).span +
      Text.byteSize ('/' :: closing.name.text ++ closing.gap.text ++ ['>']) =
      offset + Text.byteSize closing.print := by
    rw [Closing.print, Nat.add_assoc, ← Text.byteSize_append]
    rfl
  rw [behind, sizes] at angle
  refine Eq.trans angle ?_
  cases nestedContent Section.template.tag start depth (offset + Text.byteSize closing.print)
    rest <;> rfl

/-- A markup tree leads back to the depth at which it begins. -/
theorem markup (content : Markup) : Passes Section.template.tag depth content.print depth := by
  induction content generalizing depth with
  | done => exact nil
  | text written plain next ih => exact (of_text plain).append ih
  | comment body closed next ih => exact (comment closed).append ih
  | interpolation expression closed inside next ih =>
    exact (interpolation closed inside).append ih
  | selfClosing tag harmless next ih => exact (empty tag harmless).append ih
  | void tag harmless other next ih => exact (flat tag harmless other).append ih
  | element tag harmless children closing balanced next ihChildren ihNext =>
    by_cases key : tag.key = Section.template.tag
    · have opened : Passes _ depth tag.print (depth + 1) := inner tag harmless key
      have closed : Passes _ (depth + 1) closing.print depth := outer closing (balanced.trans key)
      exact ((opened.append ihChildren).append closed).append ihNext
    · have opened : Passes _ depth tag.print depth := flat tag harmless key
      have closed : Passes _ depth closing.print depth := foreign closing (balanced ▸ key)
      exact ((opened.append ihChildren).append closed).append ihNext

end Passes

/-- The content of a template ends at the close tag that is printed after it. -/
theorem nestedContent_print (content : Markup) (closing : Closing)
    (key : closing.key = Section.template.tag) (start offset : Nat) (rest : Text) :
    nestedContent Section.template.tag start 0 offset (content.print ++ (closing.print ++ rest)) =
      .ok (content.print, closing.print, rest) := by
  rw [Passes.markup content]
  have closes := nestedContent_closing (Piece.read?_closing closing key rest) rfl start
    (offset + Text.byteSize content.print)
  have shape : closing.print ++ rest =
      '<' :: ('/' :: closing.name.text ++ closing.gap.text ++ ['>'] ++ rest) := rfl
  rw [shape, closes]
  simp [Except.map, Piece.span]

end Block

end Component

end ComponentPack
