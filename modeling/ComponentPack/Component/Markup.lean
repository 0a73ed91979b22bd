import ComponentPack.Component.Section

/-!
The top-level blocks of a component source.

A raw block ends at the first close tag of its name. Any other block nests: its content is read as
a row of pieces (comments, interpolations, tags, single characters) and ends at the close tag that
balances the opening one. Every reader returns what it has read together with the rest, so that
nothing of the source is lost.
-/

namespace ComponentPack.Component

structure OpenTag where
  /-- The tag name in lower case. -/
  name : Text
  /-- The tag as written, from `<` through `>`. -/
  written : Text
  selfClosing : Bool
deriving DecidableEq, Repr

namespace OpenTag

def isNameChar (c : Char) : Bool := c.isAlphanum || c == '-'

/-- Attributes run to the first `>` outside quotes. The first argument is the open quote, if any. -/
def attributes? : Option Char → Text → Option (Text × Text)
  | _, [] => none
  | quote, c :: rest =>
    if quote = none ∧ c = '>' then some ([], rest)
    else
      let quote := match quote with
        | some q => if c = q then none else some q
        | none => if c = '"' ∨ c = '\'' then some c else none
      (attributes? quote rest).map fun (span, rest) => (c :: span, rest)

/-- Reads the tag whose `<` stands just before the text. -/
def read? (text : Text) : Option (OpenTag × Text) :=
  let name := text.takeWhile isNameChar
  let after := text.dropWhile isNameChar
  match name.head?, after.head? with
  | some first, some next =>
    if first.isAlpha ∧ (Text.isAsciiBlank next ∨ next = '>' ∨ next = '/') then
      (attributes? none after).map fun (span, rest) =>
        (⟨Text.lower name, '<' :: name ++ span ++ ['>'], span.getLast? = some '/'⟩, rest)
    else none
  | _, _ => none

end OpenTag

namespace CloseTag

/-- Takes a name off the beginning of a text, in any letter case. -/
def name? : Text → Text → Option (Text × Text)
  | [], rest => some ([], rest)
  | _ :: _, [] => none
  | n :: name, c :: rest =>
    if c.toLower = n then (name? name rest).map fun (span, rest) => (c :: span, rest) else none

def read? (name : Text) : Text → Option (Text × Text)
  | '<' :: '/' :: rest =>
    match name? name rest with
    | none => none
    | some (span, rest) =>
      match rest.dropWhile Text.isAsciiBlank with
      | '>' :: after =>
        some ('<' :: '/' :: span ++ rest.takeWhile Text.isAsciiBlank ++ ['>'], after)
      | _ => none
  | _ => none

def beginsIn (name text : Text) : Bool := Text.contains ('<' :: '/' :: name) (Text.lower text)

end CloseTag

/-- The end of a comment, sought just after its `<!--`: the comment text and the rest. -/
def commentBody? (text : Text) : Option (Text × Text) := Text.cut? "-->" text

inductive Piece where
  /-- Text, a comment, an interpolation or a tag that changes no depth. -/
  | plain (span : Text)
  | opening (span : Text)
  | closing (span : Text)
deriving DecidableEq, Repr

namespace Piece

def span : Piece → Text
  | plain s | opening s | closing s => s

/-- How many inner elements are open after a piece; `none` if it closes the element itself. -/
def depthAfter? : Piece → Nat → Option Nat
  | plain _, depth => some depth
  | opening _, depth => some (depth + 1)
  | closing _, 0 => none
  | closing _, depth + 1 => some depth

/-- The piece at `<`, in an element of the given name; `none` if a comment does not end. A tag
never spans a close tag of the enclosing element, so that a lone `<` is text. -/
def atAngle (name rest : Text) : Option (Piece × Text) :=
  match rest with
  | '!' :: '-' :: '-' :: body =>
    (commentBody? body).map fun (inner, after) =>
      (plain ("<!--" ++ inner ++ "-->"), after)
  | _ =>
    match CloseTag.read? name ('<' :: rest) with
    | some (span, after) => some (closing span, after)
    | none =>
      match OpenTag.read? rest with
      | some (tag, after) =>
        if CloseTag.beginsIn name tag.written then some (plain ['<'], rest)
        else if tag.name = name ∧ !tag.selfClosing then some (opening tag.written, after)
        else some (plain tag.written, after)
      | none => some (plain ['<'], rest)

/-- The piece at an opening brace. An interpolation is opaque, unless a close tag of the enclosing
element begins before it ends; then its braces are text. -/
def atBrace (name rest : Text) : Piece × Text :=
  match rest with
  | '\x7b' :: body =>
    match Text.cut? ['\x7d', '\x7d'] body with
    | some (inner, after) =>
      if CloseTag.beginsIn name inner then (plain ['\x7b', '\x7b'], body)
      else (plain (['\x7b', '\x7b'] ++ inner ++ ['\x7d', '\x7d']), after)
    | none => (plain ['\x7b', '\x7b'], body)
  | _ => (plain ['\x7b'], rest)

def read? (name : Text) (c : Char) (rest : Text) : Option (Piece × Text) :=
  if c = '<' then atAngle name rest
  else if c = '\x7b' then some (atBrace name rest)
  else some (plain [c], rest)

end Piece

/-! What a reader has read and the rest are the text that it was given. -/

theorem OpenTag.eq_append_of_attributes? {quote : Option Char} {text span rest : Text}
    (found : attributes? quote text = some (span, rest)) : text = span ++ '>' :: rest := by
  induction text generalizing quote span rest with
  | nil => simp [attributes?] at found
  | cons c text ih =>
    unfold attributes? at found
    split at found
    · next ends =>
      cases found
      rw [ends.2, List.nil_append]
    · obtain ⟨⟨a, b⟩, later, pair⟩ := Option.map_eq_some_iff.mp found
      cases pair
      rw [ih later, List.cons_append]

theorem OpenTag.exists_of_read? {text rest : Text} {tag : OpenTag}
    (read : read? text = some (tag, rest)) :
    ∃ span, tag.written = '<' :: span ∧ text = span ++ rest := by
  simp only [read?] at read
  split at read
  · split at read
    · obtain ⟨⟨span, after⟩, found, pair⟩ := Option.map_eq_some_iff.mp read
      cases pair
      refine ⟨_, rfl, ?_⟩
      have whole : text.takeWhile isNameChar ++ text.dropWhile isNameChar = text :=
        List.takeWhile_append_dropWhile
      rw [eq_append_of_attributes? found] at whole
      simpa using whole.symm
    · simp at read
  · simp at read

theorem OpenTag.length_le_of_read? {text rest : Text} {tag : OpenTag}
    (h : read? text = some (tag, rest)) : rest.length ≤ text.length := by
  obtain ⟨span, -, rfl⟩ := exists_of_read? h
  simp

theorem CloseTag.of_name? {name text span rest : Text}
    (read : name? name text = some (span, rest)) :
    Text.lower span = name ∧ text = span ++ rest := by
  induction name generalizing text span with
  | nil =>
    cases read
    exact ⟨rfl, rfl⟩
  | cons n name ih =>
    cases text with
    | nil => simp [name?] at read
    | cons c tail =>
      rw [name?] at read
      split at read
      · next same =>
        obtain ⟨⟨a, b⟩, found, pair⟩ := Option.map_eq_some_iff.mp read
        cases pair
        obtain ⟨rfl, rfl⟩ := ih found
        exact ⟨congrArg (· :: Text.lower a) same, rfl⟩
      · simp at read

/-- A close tag has the name in any letter case, and then blanks. -/
theorem CloseTag.of_read? {name text span rest : Text}
    (read : read? name text = some (span, rest)) :
    ∃ spelled gap : Text, Text.lower spelled = name ∧ (∀ c ∈ gap, Text.isAsciiBlank c = true) ∧
      span = '<' :: '/' :: spelled ++ gap ++ ['>'] ∧ text = span ++ rest := by
  unfold read? at read
  split at read
  · split at read
    · simp at read
    · next spelled after found =>
      obtain ⟨spells, rfl⟩ := of_name? found
      split at read
      · next stop =>
        cases read
        refine ⟨spelled, _, spells, List.all_eq_true.mp List.all_takeWhile, rfl, ?_⟩
        have whole : after.takeWhile Text.isAsciiBlank ++ after.dropWhile Text.isAsciiBlank =
            after := List.takeWhile_append_dropWhile
        rw [stop] at whole
        simpa using whole.symm
      · simp at read
  · simp at read

/-- A piece is a close tag, an opening tag, or plain text of some kind. -/
theorem Piece.read?_cases {name rest after : Text} {c : Char} {piece : Piece}
    (read : read? name c rest = some (piece, after)) :
    (∃ span, piece = .closing span ∧ CloseTag.read? name (c :: rest) = some (span, after)) ∨
    (∃ tag, c = '<' ∧ OpenTag.read? rest = some (tag, after) ∧
      (piece = .opening tag.written ∨ piece = .plain tag.written)) ∨
    ∃ span, piece = .plain span ∧ span ≠ [] ∧ c :: rest = span ++ after := by
  unfold read? at read
  split at read
  · next angle =>
    subst angle
    unfold atAngle at read
    split at read
    · next body =>
      obtain ⟨⟨inner, beyond⟩, found, pair⟩ := Option.map_eq_some_iff.mp read
      cases pair
      obtain rfl := Text.eq_append_of_cut? found
      exact .inr (.inr ⟨_, rfl, by simp, by simp⟩)
    · split at read
      · next closed =>
        cases read
        exact .inl ⟨_, rfl, closed⟩
      · split at read
        · next tag beyond opened =>
          split at read
          · cases read
            exact .inr (.inr ⟨_, rfl, by simp, rfl⟩)
          · split at read
            · cases read
              exact .inr (.inl ⟨tag, rfl, opened, .inl rfl⟩)
            · cases read
              exact .inr (.inl ⟨tag, rfl, opened, .inr rfl⟩)
        · cases read
          exact .inr (.inr ⟨_, rfl, by simp, rfl⟩)
  · split at read
    · next brace =>
      subst brace
      rw [Option.some.injEq] at read
      unfold atBrace at read
      split at read
      · split at read
        · next found =>
          obtain rfl := Text.eq_append_of_cut? found
          split at read <;> (cases read; exact .inr (.inr ⟨_, rfl, by simp, by simp⟩))
        · cases read
          exact .inr (.inr ⟨_, rfl, by simp, rfl⟩)
      · cases read
        exact .inr (.inr ⟨_, rfl, by simp, rfl⟩)
    · cases read
      exact .inr (.inr ⟨_, rfl, by simp, rfl⟩)

theorem Piece.eq_append_of_read? {name rest after : Text} {c : Char} {piece : Piece}
    (read : read? name c rest = some (piece, after)) :
    c :: rest = piece.span ++ after ∧ piece.span ≠ [] := by
  rcases read?_cases read with ⟨span, rfl, closed⟩ | ⟨tag, rfl, opened, kind⟩ |
    ⟨span, rfl, filled, whole⟩
  · obtain ⟨spelled, gap, -, -, rfl, whole⟩ := CloseTag.of_read? closed
    exact ⟨whole, by simp [span]⟩
  · obtain ⟨span, written, rfl⟩ := OpenTag.exists_of_read? opened
    rcases kind with rfl | rfl <;> simp [Piece.span, written]
  · exact ⟨whole, filled⟩

theorem Piece.length_lt_of_read? {name rest after : Text} {c : Char} {piece : Piece}
    (h : read? name c rest = some (piece, after)) : after.length < (c :: rest).length := by
  obtain ⟨whole, filled⟩ := eq_append_of_read? h
  have some := List.length_pos_iff.mpr filled
  rw [whole, List.length_append]
  omega

structure Block where
  tag : Text
  /-- The byte offset of the opening tag. -/
  offset : Nat
  opening : Text
  content : Text
  /-- The close tag as written; empty for a self-closing element. -/
  closing : Text
deriving DecidableEq, Repr

namespace Block

def rawContent? (name : Text) : Text → Option (Text × Text × Text)
  | [] => none
  | c :: rest =>
    match CloseTag.read? name (c :: rest) with
    | some (span, after) => some ([], span, after)
    | none => (rawContent? name rest).map fun (content, found) => (c :: content, found)

/-- The content of an element that nests, its close tag and the rest. `depth` elements of the name
are open besides the outermost one; `offset` is the place of the text and `start` that of the
outermost opening tag. -/
def nestedContent (name : Text) (start depth offset : Nat) (text : Text) :
    Except SectionError (Text × Text × Text) :=
  match text with
  | [] => .error (.unclosed name start)
  | c :: rest =>
    match h : Piece.read? name c rest with
    | none => .error (.unterminatedComment offset)
    | some (piece, after) =>
      have : after.length < rest.length + 1 := Piece.length_lt_of_read? h
      match piece.depthAfter? depth with
      | none => .ok ([], piece.span, after)
      | some depth =>
        match nestedContent name start depth (offset + Text.byteSize piece.span) after with
        | .error e => .error e
        | .ok (content, found) => .ok (piece.span ++ content, found)
termination_by text.length

def contentOf (tag : OpenTag) (start offset : Nat) (text : Text) :
    Except SectionError (Text × Text × Text) :=
  if (Section.ofTag? tag.name).any Section.isRaw then
    match rawContent? tag.name text with
    | some found => .ok found
    | none => .error (.unclosed tag.name start)
  else nestedContent tag.name start 0 offset text

theorem eq_append_of_rawContent? {name text content closing rest : Text}
    (found : rawContent? name text = some (content, closing, rest)) :
    text = content ++ (closing ++ rest) := by
  induction text generalizing content with
  | nil => simp [rawContent?] at found
  | cons c text ih =>
    rw [rawContent?] at found
    split at found
    · next closed =>
      cases found
      obtain ⟨_, _, -, -, -, whole⟩ := CloseTag.of_read? closed
      exact whole
    · obtain ⟨⟨inner, parts⟩, later, pair⟩ := Option.map_eq_some_iff.mp found
      cases pair
      rw [ih later, List.cons_append]

theorem eq_append_of_nestedContent {name : Text} {start depth offset : Nat}
    {text content closing rest : Text}
    (found : nestedContent name start depth offset text = .ok (content, closing, rest)) :
    text = content ++ (closing ++ rest) := by
  fun_induction nestedContent name start depth offset text generalizing content with
  | case1 | case2 | case4 => simp at found
  | case3 depth offset c tail piece after read =>
    cases found
    exact (Piece.eq_append_of_read? read).1
  | case5 depth offset c tail piece after read _ next _ inner found' rec ih =>
    cases found
    rw [(Piece.eq_append_of_read? read).1, ih rec, List.append_assoc]

theorem eq_append_of_contentOf {tag : OpenTag} {start offset : Nat}
    {text content closing rest : Text}
    (found : contentOf tag start offset text = .ok (content, closing, rest)) :
    text = content ++ (closing ++ rest) := by
  unfold contentOf at found
  split at found
  · split at found
    · next raw =>
      cases found
      exact eq_append_of_rawContent? raw
    · simp at found
  · exact eq_append_of_nestedContent found

theorem length_le_of_contentOf {tag : OpenTag} {start offset : Nat}
    {text content closing rest : Text}
    (h : contentOf tag start offset text = .ok (content, closing, rest)) :
    rest.length ≤ text.length := by
  rw [eq_append_of_contentOf h, List.length_append, List.length_append]
  omega

end Block

/-- The blocks of a text that stands at a byte offset of the source. Comments are passed over, and
so is every `<` that opens no tag. -/
def scanFrom (offset : Nat) : Text → Except SectionError (List Block)
  | [] => .ok []
  | '<' :: '!' :: '-' :: '-' :: body =>
    match h : commentBody? body with
    | none => .error (.unterminatedComment offset)
    | some (inner, after) =>
      have := Text.length_le_of_cut? h
      scanFrom (offset + (inner.byteSize + 7)) after
  | '<' :: rest =>
    match h : OpenTag.read? rest with
    | none => scanFrom (offset + 1) rest
    | some (tag, after) =>
      have := OpenTag.length_le_of_read? h
      let inside := offset + tag.written.byteSize
      if tag.selfClosing then
        match scanFrom inside after with
        | .error e => .error e
        | .ok blocks => .ok (⟨tag.name, offset, tag.written, [], []⟩ :: blocks)
      else
        match hc : Block.contentOf tag offset inside after with
        | .error e => .error e
        | .ok (content, closing, beyond) =>
          have := Block.length_le_of_contentOf hc
          match scanFrom (inside + content.byteSize + closing.byteSize) beyond with
          | .error e => .error e
          | .ok blocks => .ok (⟨tag.name, offset, tag.written, content, closing⟩ :: blocks)
  | c :: rest => scanFrom (offset + c.utf8Size) rest
termination_by text => text.length
decreasing_by all_goals simp only [List.length_cons]; omega

def scan (source : Text) : Except SectionError (List Block) := scanFrom 0 source

end ComponentPack.Component
