import ComponentPack.Proofs.Component.Nesting

/-!
How far the readers of a component look ahead. Inside of an element they look for a `>`, a quote
or the end of an interpolation, however far that is, but they take nothing that spans a close tag
of the element. So what follows a closed element never changes it.
-/

set_option autoImplicit false

namespace ComponentPack

open List Option

variable {text more span rest : Text} {quote : Option Char}

theorem Text.cut?_append_right {phrase head tail : Text} (nonempty : phrase ≠ [])
    (found : cut? phrase text = some (head, tail)) (more : Text) :
    cut? phrase (text ++ more) = some (head, tail ++ more) := by
  obtain ⟨rfl, first⟩ := (cut?_eq_some_iff nonempty).mp found
  exact (cut?_eq_some_iff nonempty).mpr ⟨by simp, first⟩

/-- A phrase that occurs only with the help of what follows ends behind the text. -/
theorem Text.prefix_of_cut?_eq_none {phrase head tail : Text} (nonempty : phrase ≠ [])
    (missing : cut? phrase text = none) (found : cut? phrase (text ++ more) = some (head, tail)) :
    text <+: head ++ phrase.dropLast := by
  have whole := eq_append_of_cut? found
  have absent : ¬ phrase <:+: text := by
    rw [← contains_iff_infix, contains, missing]
    simp
  have ends : text <+: head ++ phrase ++ tail := ⟨more, by rw [whole, append_assoc]⟩
  have last : head ++ phrase = head ++ phrase.dropLast ++ [phrase.getLast nonempty] := by
    rw [append_assoc, dropLast_append_getLast]
  by_cases short : text.length < (head ++ phrase).length
  · have inside := prefix_of_prefix_length_le ends (prefix_append _ tail) (by omega)
    rw [last] at inside short
    refine prefix_of_prefix_length_le inside (prefix_append _ _) ?_
    rw [length_append, length_singleton] at short
    omega
  · have reaches := prefix_of_prefix_length_le (prefix_append _ tail) ends (by omega)
    obtain ⟨rest, rfl⟩ := reaches
    exact absurd ⟨head, rest, rfl⟩ absent

namespace Component

namespace OpenTag

/-- A character ends the attributes, or it leaves the reader in or out of a quoted value. -/
theorem attributes?_cons (quote : Option Char) (c : Char) :
    (quote = none ∧ c = '>' ∧ ∀ rest, attributes? quote (c :: rest) = some ([], rest)) ∨
      ∃ next, ∀ rest, attributes? quote (c :: rest) =
        (attributes? next rest).map fun (span, rest) => (c :: span, rest) := by
  by_cases ends : quote = none ∧ c = '>'
  · left
    refine ⟨ends.1, ends.2, fun rest => ?_⟩
    unfold attributes?
    rw [if_pos ends]
  · right
    cases quote with
    | none =>
      refine ⟨if c = '"' ∨ c = '\'' then some c else none, fun rest => ?_⟩
      conv_lhs => unfold attributes?
      rw [if_neg ends]
    | some q =>
      refine ⟨if c = q then none else some q, fun rest => ?_⟩
      conv_lhs => unfold attributes?
      rw [if_neg ends]

theorem attributes?_append (found : attributes? quote text = some (span, rest)) (more : Text) :
    attributes? quote (text ++ more) = some (span, rest ++ more) := by
  induction text generalizing quote span rest with
  | nil => simp [attributes?] at found
  | cons c text ih =>
    rw [cons_append]
    rcases attributes?_cons quote c with ⟨-, -, ends⟩ | ⟨next, goes⟩
    · rw [ends] at found ⊢
      cases found
      rfl
    · rw [goes] at found ⊢
      obtain ⟨⟨a, b⟩, later, pair⟩ := map_eq_some_iff.mp found
      cases pair
      rw [ih later]
      rfl

/-- Attributes that end only with the help of what follows run through the whole text. -/
theorem prefix_of_attributes?_eq_none (missing : attributes? quote text = none)
    (found : attributes? quote (text ++ more) = some (span, rest)) : text <+: span := by
  induction text generalizing quote span rest with
  | nil => exact List.nil_prefix
  | cons c text ih =>
    rw [cons_append] at found
    rcases attributes?_cons quote c with ⟨-, -, ends⟩ | ⟨next, goes⟩
    · rw [ends] at missing
      simp at missing
    · rw [goes] at missing found
      obtain ⟨⟨a, b⟩, later, pair⟩ := map_eq_some_iff.mp found
      cases pair
      exact cons_prefix_cons.mpr ⟨rfl, ih (map_eq_none_iff.mp missing) later⟩

/-- A name ends at a character that is not part of one, and the attributes begin there. -/
theorem read?_name {name : Text} (named : ∀ c ∈ name, isNameChar c = true) {c : Char}
    (stop : isNameChar c = false) (rest : Text) :
    read? (name ++ c :: rest) =
      if name.head?.any Char.isAlpha = true ∧ (Text.isAsciiBlank c ∨ c = '>' ∨ c = '/') then
        (attributes? none (c :: rest)).map fun (span, rest) =>
          (⟨Text.lower name, '<' :: name ++ span ++ ['>'], span.getLast? = some '/'⟩, rest)
      else none := by
  have stops : ∀ d ∈ (c :: rest).head?, isNameChar d = false := by simpa using stop
  rw [read?, Text.takeWhile_append_eq named stops, Text.dropWhile_append_eq named stops]
  cases name with
  | nil => simp
  | cons first others => simp

theorem read?_eq_none_of_named {name : Text} (named : ∀ c ∈ name, isNameChar c = true) :
    read? name = none := by
  have whole : name.dropWhile isNameChar = [] := by simpa using named
  rw [read?, whole]
  simp

theorem exists_name (text : Text) :
    (∀ c ∈ text, isNameChar c = true) ∨ ∃ name c rest, text = name ++ c :: rest ∧
      (∀ c ∈ name, isNameChar c = true) ∧ isNameChar c = false := by
  have named : ∀ c ∈ text.takeWhile isNameChar, isNameChar c = true := fun c member =>
    mem_takeWhile_imp member
  have stops := @Text.stops_dropWhile isNameChar text
  have whole := @List.takeWhile_append_dropWhile _ isNameChar text
  cases rest : text.dropWhile isNameChar with
  | nil =>
    rw [rest, append_nil] at whole
    exact .inl (whole ▸ named)
  | cons c rest' =>
    rw [rest] at whole stops
    exact .inr ⟨_, c, rest', whole.symm, named, stops c rfl⟩

/-- What a tag is read from. -/
theorem of_read?_eq_some {tag : OpenTag} (read : read? text = some (tag, rest)) :
    ∃ name c after span, text = name ++ c :: after ∧ (∀ c ∈ name, isNameChar c = true) ∧
      isNameChar c = false ∧ name.head?.any Char.isAlpha = true ∧
      (Text.isAsciiBlank c ∨ c = '>' ∨ c = '/') ∧
      attributes? none (c :: after) = some (span, rest) ∧
      tag = ⟨Text.lower name, '<' :: name ++ span ++ ['>'], span.getLast? = some '/'⟩ := by
  rcases exists_name text with named | ⟨name, c, after, rfl, named, stop⟩
  · rw [read?_eq_none_of_named named] at read
    simp at read
  · rw [read?_name named stop] at read
    split at read
    · next starts =>
      obtain ⟨⟨span, beyond⟩, found, pair⟩ := map_eq_some_iff.mp read
      cases pair
      exact ⟨name, c, after, span, rfl, named, stop, starts.1, starts.2, found, rfl⟩
    · simp at read

theorem read?_append_right {tag : OpenTag} (read : read? text = some (tag, rest)) (more : Text) :
    read? (text ++ more) = some (tag, rest ++ more) := by
  obtain ⟨name, c, after, span, rfl, named, stop, letter, follows, found, rfl⟩ :=
    of_read?_eq_some read
  rw [append_assoc, cons_append, read?_name named stop, if_pos ⟨letter, follows⟩,
    ← cons_append, attributes?_append found]
  rfl

theorem eq_append_of_read? {tag : OpenTag} (read : read? text = some (tag, rest)) :
    '<' :: text = tag.written ++ rest := by
  obtain ⟨span, written, rfl⟩ := exists_of_read? read
  rw [written, cons_append]

theorem isNameChar_of_read? {tag : OpenTag} (read : read? text = some (tag, rest)) :
    ∀ c ∈ tag.name, isNameChar c = true := by
  obtain ⟨name, -, -, -, -, named, -, -, -, -, rfl⟩ := of_read?_eq_some read
  intro d member
  obtain ⟨e, among, rfl⟩ := mem_map.mp member
  rw [isNameChar_toLower]
  exact named e among

/-- A tag that ends only with the help of what follows spans the whole text, if its name ends in
the text. -/
theorem prefix_of_read?_eq_none {after : Text} {tag : OpenTag}
    (stops : ∃ c ∈ text, isNameChar c = false) (missing : read? text = none)
    (read : read? (text ++ more) = some (tag, after)) : '<' :: text <+: tag.written := by
  rcases exists_name text with named | ⟨name, c, rest, rfl, named, stop⟩
  · obtain ⟨c, member, other⟩ := stops
    rw [named c member] at other
    simp at other
  · rw [read?_name named stop] at missing
    rw [append_assoc, cons_append, read?_name named stop] at read
    split at read
    · next starts =>
      rw [if_pos starts, map_eq_none_iff] at missing
      obtain ⟨⟨span, beyond⟩, found, pair⟩ := map_eq_some_iff.mp read
      cases pair
      obtain ⟨inner, rfl⟩ := prefix_of_attributes?_eq_none missing found
      exact ⟨inner ++ ['>'], by simp⟩
    · simp at read

end OpenTag

namespace CloseTag

/-- A close tag of the name stands somewhere in the text. -/
def Ahead (name text : Text) : Prop := ∃ rest, rest <:+ text ∧ (read? name rest).isSome = true

variable {name text : Text}

theorem Ahead.of_suffix {whole : Text} (h : Ahead name text) (inside : text <:+ whole) :
    Ahead name whole := by
  obtain ⟨rest, ends, read⟩ := h
  exact ⟨rest, ends.trans inside, read⟩

theorem Ahead.shape (h : Ahead name text) :
    ∃ front spelled gap after, Text.lower spelled = name ∧
      text = front ++ ('<' :: '/' :: spelled ++ gap ++ '>' :: after) := by
  obtain ⟨rest, ⟨front, whole⟩, found⟩ := h
  obtain ⟨⟨span, after⟩, read⟩ := isSome_iff_exists.mp found
  obtain ⟨spelled, gap, spells, -, rfl, rfl⟩ := read?_eq_some_iff.mp read
  exact ⟨front, spelled, gap, after, spells, by rw [← whole]; simp⟩

theorem Ahead.angle_mem (h : Ahead name text) : '<' ∈ text := by
  obtain ⟨front, spelled, gap, after, -, rfl⟩ := h.shape
  simp

/-- The beginning of the close tag stands before the last character of the text. -/
theorem Ahead.beginsIn {whole : Text} (h : Ahead name text) (inside : text.dropLast <+: whole) :
    beginsIn name whole = true := by
  obtain ⟨front, spelled, gap, after, spells, rfl⟩ := h.shape
  obtain ⟨beyond, rfl⟩ := inside
  rw [CloseTag.beginsIn, Text.contains_iff_infix, ← spells]
  have last : front ++ ('<' :: '/' :: spelled ++ gap ++ '>' :: after) =
      front ++ ('<' :: '/' :: spelled) ++ gap ++ ('>' :: after) := by simp
  rw [last, dropLast_append_of_ne_nil (by simp), append_assoc, append_assoc,
    lower_append, lower_append]
  exact ⟨Text.lower front, _, rfl⟩

theorem read?_append_right (read : read? name text = some (span, rest)) (more : Text) :
    read? name (text ++ more) = some (span, rest ++ more) := by
  obtain ⟨spelled, gap, spells, blank, rfl, rfl⟩ := read?_eq_some_iff.mp read
  exact read?_eq_some_iff.mpr ⟨spelled, gap, spells, blank, rfl, append_assoc _ _ _⟩

/-- What follows another `<` cannot complete a close tag. -/
theorem read?_append_eq_none (named : ∀ c ∈ name, OpenTag.isNameChar c = true)
    (angle : '<' ∈ text) (missing : read? name ('<' :: text) = none) (more : Text) :
    read? name ('<' :: text ++ more) = none := by
  rw [eq_none_iff_forall_ne_some]
  rintro ⟨span, rest⟩ read
  obtain ⟨spelled, gap, spells, blank, shape, whole⟩ := read?_eq_some_iff.mp read
  have first : '<' :: text <+: span ++ rest := ⟨more, whole⟩
  by_cases short : span.length ≤ ('<' :: text).length
  · obtain ⟨after, inside⟩ :=
      prefix_of_prefix_length_le (prefix_append span rest) first short
    have found : read? name ('<' :: text) = some (span, after) :=
      read?_eq_some_iff.mpr ⟨spelled, gap, spells, blank, shape, inside.symm⟩
    rw [missing] at found
    simp at found
  · have inside := prefix_of_prefix_length_le first (prefix_append span rest) (by omega)
    rw [shape, cons_append, cons_append] at inside
    have among := (cons_prefix_cons.mp inside).2.subset angle
    simp only [cons_append, mem_cons, mem_append, not_mem_nil] at among
    rcases among with slash | (letter | gapped) | last
    · exact absurd slash (by decide)
    · exact absurd (isNameChar_of_lower_eq spells named '<' letter) (by decide)
    · exact absurd (blank '<' gapped) (by decide)
    · exact absurd last (by decide)

end CloseTag

namespace Piece

variable {name : Text} {c : Char} {rest after : Text} {piece : Piece}

theorem suffix_of_read? (read : Piece.read? name c rest = some (piece, after)) :
    after <:+ rest := by
  obtain ⟨whole, filled⟩ := eq_append_of_read? read
  obtain ⟨first, others, same⟩ := exists_cons_of_ne_nil filled
  rw [same, cons_append, List.cons.injEq] at whole
  exact ⟨others, whole.2.symm⟩

/-- A close tag is a piece of its own. -/
theorem closeTag_of_read? (read : Piece.read? name c rest = some (.closing span, after)) :
    CloseTag.read? name (c :: rest) = some (span, after) := by
  rcases read?_cases read with ⟨span', same, closed⟩ | ⟨tag, -, -, same | same⟩ | ⟨span', same, -⟩
  · cases same
    exact closed
  · simp at same
  · simp at same
  · simp at same

theorem read?_closeTag (closed : CloseTag.read? name (c :: rest) = some (span, after)) :
    Piece.read? name c rest = some (.closing span, after) := by
  obtain ⟨spelled, gap, -, -, shape, whole⟩ := CloseTag.read?_eq_some_iff.mp closed
  rw [shape, cons_append, cons_append, cons_append, cons_append,
    cons_append, List.cons.injEq] at whole
  obtain ⟨rfl, slash⟩ := whole
  rw [Piece.read?, if_pos rfl, atAngle, closed]
  intro body comment
  rw [slash] at comment
  simp at comment

theorem depthAfter?_eq_none {depth : Nat} (ends : piece.depthAfter? depth = none) :
    depth = 0 ∧ ∃ span, piece = .closing span := by
  cases piece with
  | plain span => simp [depthAfter?] at ends
  | opening span => simp [depthAfter?] at ends
  | closing span =>
    cases depth with
    | zero => exact ⟨rfl, span, rfl⟩
    | succ depth => simp [depthAfter?] at ends

/-- What follows another `<` cannot complete the beginning of a comment. -/
theorem comment_of_append {body : Text} (angle : '<' ∈ rest)
    (comment : rest ++ more = '!' :: '-' :: '-' :: body) :
    ∃ inner, rest = '!' :: '-' :: '-' :: inner := by
  have first : rest <+: ['!', '-', '-'] ++ body := ⟨more, comment⟩
  by_cases short : rest.length ≤ 3
  · have inside := prefix_of_prefix_length_le first (prefix_append _ body) short
    exact absurd (inside.subset angle) (by decide)
  · obtain ⟨inner, whole⟩ := prefix_of_prefix_length_le (prefix_append _ body) first
      (by simp only [length_cons, length_nil]; omega)
    exact ⟨inner, whole.symm⟩

theorem atAngle_append (named : ∀ c ∈ name, OpenTag.isNameChar c = true)
    (ahead : CloseTag.Ahead name rest) (read : atAngle name rest = some (piece, after))
    (more : Text) : atAngle name (rest ++ more) = some (piece, after ++ more) := by
  unfold atAngle at read
  split at read
  · next body =>
    obtain ⟨⟨inner, beyond⟩, found, pair⟩ := map_eq_some_iff.mp read
    cases pair
    simp only [cons_append, atAngle]
    rw [commentBody?, Text.cut?_append_right (by decide) found]
    rfl
  · next other =>
    have angle := ahead.angle_mem
    rw [atAngle]
    · split at read
      · next closed =>
        cases read
        have closed' := CloseTag.read?_append_right closed more
        rw [cons_append] at closed'
        rw [closed']
      · next missing =>
        have missing' := CloseTag.read?_append_eq_none named angle missing more
        rw [cons_append] at missing'
        rw [missing']
        simp only
        split at read
        · next tag beyond opened =>
          rw [OpenTag.read?_append_right opened]
          simp only
          split at read
          · next begins =>
            cases read
            rw [if_pos begins]
          · next harmless =>
            rw [if_neg harmless]
            split at read
            · next same =>
              cases read
              rw [if_pos same]
            · next same =>
              cases read
              rw [if_neg same]
        · next unopened =>
          cases read
          -- A tag that is completed by what follows would span the close tag.
          cases opened : OpenTag.read? (rest ++ more) with
          | none => rfl
          | some found =>
            obtain ⟨tag, beyond⟩ := found
            have spans := OpenTag.prefix_of_read?_eq_none ⟨'<', angle, by decide⟩ unopened opened
            have begins : CloseTag.beginsIn name tag.written = true :=
              (ahead.of_suffix (suffix_cons '<' rest)).beginsIn
                ((List.dropLast_prefix _).trans spans)
            exact if_pos begins
    · exact fun body comment => (comment_of_append angle comment).elim other

theorem atBrace_append (ahead : CloseTag.Ahead name (atBrace name rest).2) (more : Text) :
    atBrace name (rest ++ more) = ((atBrace name rest).1, (atBrace name rest).2 ++ more) := by
  have filled : (atBrace name rest).2 ≠ [] := ne_nil_of_mem ahead.angle_mem
  unfold atBrace at ahead filled ⊢
  split at ahead
  · next body =>
    simp only [cons_append]
    cases found : Text.cut? ['\x7d', '\x7d'] body with
    | some parts =>
      obtain ⟨inner, after⟩ := parts
      rw [Text.cut?_append_right (by simp) found]
      simp only
      split <;> rfl
    | none =>
      simp only [found] at ahead
      -- An interpolation that is completed by what follows would span the close tag.
      cases found' : Text.cut? ['\x7d', '\x7d'] (body ++ more) with
      | none => rfl
      | some parts =>
        obtain ⟨inner, after⟩ := parts
        have reaches : body <+: inner ++ ['\x7d'] :=
          Text.prefix_of_cut?_eq_none (by simp) found found'
        have length := reaches.length_le
        rw [length_append, length_singleton] at length
        have inside : body.dropLast <+: inner :=
          prefix_of_prefix_length_le ((List.dropLast_prefix body).trans reaches)
            (prefix_append inner _) (by rw [length_dropLast]; omega)
        exact if_pos (ahead.beginsIn inside)
  · next other =>
    cases rest with
    | nil => exact absurd rfl filled
    | cons d rest =>
      rw [cons_append]
      split
      · next same =>
        obtain ⟨rfl, -⟩ := List.cons.inj same
        exact absurd rfl (other rest)
      · rfl

/-- A piece before a close tag, or a close tag itself, is the same whatever follows. -/
theorem read?_append_right (named : ∀ c ∈ name, OpenTag.isNameChar c = true)
    (read : Piece.read? name c rest = some (piece, after))
    (later : CloseTag.Ahead name after ∨ ∃ span, piece = .closing span) (more : Text) :
    Piece.read? name c (rest ++ more) = some (piece, after ++ more) := by
  rcases later with ahead | ⟨span, rfl⟩
  · have ahead' := ahead.of_suffix (suffix_of_read? read)
    unfold Piece.read? at read ⊢
    split at read
    · next angle =>
      rw [if_pos angle]
      exact atAngle_append named ahead' read more
    · next angle =>
      rw [if_neg angle]
      split at read
      · next brace =>
        rw [Option.some.injEq] at read
        rw [if_pos brace, atBrace_append (by rw [read]; exact ahead), read]
      · next brace =>
        cases read
        rw [if_neg brace]
  · exact read?_closeTag (CloseTag.read?_append_right (closeTag_of_read? read) more)

end Piece

namespace Block

variable {name text content closing rest : Text} {start depth offset : Nat}

theorem ahead_of_nestedContent
    (found : nestedContent name start depth offset text = .ok (content, closing, rest)) :
    CloseTag.Ahead name text := by
  fun_induction nestedContent name start depth offset text generalizing content closing rest with
  | case1 => simp at found
  | case2 => simp at found
  | case3 depth offset c tail piece after read _ ends =>
    obtain ⟨-, span, rfl⟩ := Piece.depthAfter?_eq_none ends
    exact ⟨_, suffix_refl _, by rw [Piece.closeTag_of_read? read]; rfl⟩
  | case4 => simp at found
  | case5 depth offset c tail piece after read _ next _ inner found' rec ih =>
    exact (ih rec).of_suffix ((Piece.suffix_of_read? read).trans (suffix_cons c tail))

/-- A nested element that is closed stays as it is, wherever it stands and whatever follows. -/
theorem nestedContent_append (named : ∀ c ∈ name, OpenTag.isNameChar c = true)
    (found : nestedContent name start depth offset text = .ok (content, closing, rest))
    (start' offset' : Nat) (more : Text) :
    nestedContent name start' depth offset' (text ++ more) =
      .ok (content, closing, rest ++ more) := by
  fun_induction nestedContent name start depth offset text
    generalizing content closing rest offset' with
  | case1 => simp at found
  | case2 => simp at found
  | case3 depth offset c tail piece after read _ ends =>
    cases found
    obtain ⟨rfl, closed⟩ := Piece.depthAfter?_eq_none ends
    exact nestedContent_closing (Piece.read?_append_right named read (.inr closed) more) ends _ _
  | case4 => simp at found
  | case5 depth offset c tail piece after read _ next deeper inner found' rec ih =>
    cases found
    have ahead := ahead_of_nestedContent rec
    rw [cons_append,
      nestedContent_cons (Piece.read?_append_right named read (.inl ahead) more) deeper, ih rec]
    rfl

theorem ahead_of_rawContent? (found : rawContent? name text = some (content, closing, rest)) :
    CloseTag.Ahead name text := by
  induction text generalizing content with
  | nil => simp [rawContent?] at found
  | cons c text ih =>
    rw [rawContent?] at found
    split at found
    · next closed => exact ⟨_, suffix_refl _, by rw [closed]; rfl⟩
    · obtain ⟨⟨inner, parts⟩, later, pair⟩ := map_eq_some_iff.mp found
      cases pair
      exact (ih later).of_suffix (suffix_cons c text)

theorem rawContent?_append (named : ∀ c ∈ name, OpenTag.isNameChar c = true)
    (found : rawContent? name text = some (content, closing, rest)) (more : Text) :
    rawContent? name (text ++ more) = some (content, closing, rest ++ more) := by
  induction text generalizing content closing rest with
  | nil => simp [rawContent?] at found
  | cons c text ih =>
    rw [cons_append, rawContent?]
    rw [rawContent?] at found
    split at found
    · next span after closed =>
      cases found
      have closed' := CloseTag.read?_append_right closed more
      rw [cons_append] at closed'
      rw [closed']
    · next missing =>
      obtain ⟨⟨inner, parts⟩, later, pair⟩ := map_eq_some_iff.mp found
      cases pair
      have angle := (ahead_of_rawContent? later).angle_mem
      have missing' : CloseTag.read? name (c :: (text ++ more)) = none := by
        by_cases first : c = '<'
        · subst first
          exact CloseTag.read?_append_eq_none named angle missing more
        · rw [CloseTag.read?]
          intro rest same
          exact absurd (List.cons.inj same).1 first
      rw [missing', ih later]
      rfl

variable {tag : OpenTag}

/-- A closed element stays as it is, wherever it stands and whatever follows. -/
theorem contentOf_append (named : ∀ c ∈ tag.name, OpenTag.isNameChar c = true)
    (found : contentOf tag start offset text = .ok (content, closing, rest))
    (start' offset' : Nat) (more : Text) :
    contentOf tag start' offset' (text ++ more) = .ok (content, closing, rest ++ more) := by
  unfold contentOf at found ⊢
  split at found
  · next raw =>
    rw [if_pos raw]
    split at found
    · next read =>
      cases found
      rw [rawContent?_append named read]
    · simp at found
  · next nested =>
    rw [if_neg nested]
    exact nestedContent_append named found start' offset' more

end Block

end Component

end ComponentPack
