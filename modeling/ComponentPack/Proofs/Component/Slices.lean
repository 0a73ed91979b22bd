import ComponentPack.Proofs.Component.LetterCase

/-!
The blocks of a source as slices of it. From its beginning to its end a source is laid out as
characters that open nothing, comments and blocks, and the scanner follows that layout: each block
it finds stands in the source where the block says, and an error names the place of a tag or of a
comment that is really left open.
-/

set_option autoImplicit false

namespace ComponentPack.Component

open Document List

/-- Every quote in the text is closed, and no `>` stands outside of quotes. -/
inductive Balanced : Text → Prop where
  | nil : Balanced []
  | char {c : Char} {rest : Text} (plain : c ≠ '"' ∧ c ≠ '\'' ∧ c ≠ '>')
      (later : Balanced rest) : Balanced (c :: rest)
  | quoted {quote : Char} {text rest : Text} (isQuote : quote = '"' ∨ quote = '\'')
      (closed : quote ∉ text) (later : Balanced rest) :
      Balanced (quote :: text ++ [quote] ++ rest)

/-- An opening tag as loosely as one may be written: anything may stand between the name and the
end, as long as its quotes are closed. -/
structure StartTag where
  name : TagName
  span : Text
  follows : OpenTag.Follows span
  balanced : Balanced span

namespace StartTag

def print (start : StartTag) : Text := '<' :: start.name.text ++ start.span ++ ['>']

/-- The name in lower case. -/
def key (start : StartTag) : Text := Text.lower start.name.text

/-- The tag is an element of its own. -/
def selfClosing (start : StartTag) : Bool := start.span.getLast? = some '/'

/-- The tag as it is read. -/
def tag (start : StartTag) : OpenTag := ⟨start.key, start.print, start.selfClosing⟩

theorem isNameChar_of_mem_key (start : StartTag) :
    ∀ c ∈ start.key, OpenTag.isNameChar c = true :=
  OpenTag.isNameChar_of_mem_lower start.name.isNameChar_of_mem

theorem isAlpha_head_key (start : StartTag) : start.key.head?.any Char.isAlpha = true := by
  change start.name.first.toLower.isAlpha = true
  rw [Char.isAlpha_toLower_eq_isAlpha]
  exact start.name.letter

end StartTag

theorem Balanced.passedOver {span : Text} (balanced : Balanced span) : OpenTag.PassedOver span := by
  induction balanced with
  | nil => exact .nil
  | @char c rest plain _ ih =>
    have single : OpenTag.PassedOver [c] := .of_plain (by simpa using plain)
    exact single.append ih
  | quoted isQuote closed _ ih => exact (OpenTag.PassedOver.quoted isQuote closed).append ih

namespace OpenTag

/-- The text is balanced from where the open quote, if any, is closed. -/
def Resumes : Option Char → Text → Prop
  | none, span => Balanced span
  | some quote, span => ∃ text rest, span = text ++ quote :: rest ∧ quote ∉ text ∧ Balanced rest

theorem resumes_cons {quote : Option Char} {c : Char} {span : Text}
    (goes : ¬ (quote = none ∧ c = '>')) (later : Resumes (quoteAfter quote c) span) :
    Resumes quote (c :: span) := by
  cases quote with
  | none =>
    by_cases isQuote : c = '"' ∨ c = '\''
    · rw [quoteAfter, if_pos isQuote] at later
      obtain ⟨text, rest, rfl, closed, balanced⟩ := later
      have whole : Balanced (c :: text ++ [c] ++ rest) := .quoted isQuote closed balanced
      rwa [List.append_assoc] at whole
    · rw [quoteAfter, if_neg isQuote] at later
      rw [not_or] at isQuote
      exact .char ⟨isQuote.1, isQuote.2, fun ends => goes ⟨rfl, ends⟩⟩ later
  | some quote =>
    by_cases same : c = quote
    · rw [quoteAfter, if_pos same] at later
      exact ⟨[], span, by rw [same]; rfl, List.not_mem_nil, later⟩
    · rw [quoteAfter, if_neg same] at later
      obtain ⟨text, rest, rfl, closed, balanced⟩ := later
      refine ⟨c :: text, rest, rfl, ?_, balanced⟩
      rw [List.mem_cons, not_or]
      exact ⟨Ne.symm same, closed⟩

theorem resumes_of_attributes? {quote : Option Char} {text span rest : Text}
    (found : attributes? quote text = some (span, rest)) : Resumes quote span := by
  induction text generalizing quote span with
  | nil => simp [attributes?] at found
  | cons c text ih =>
    rw [attributes?_eq_ite] at found
    split at found
    · next ends =>
      cases found
      rw [ends.1]
      exact Balanced.nil
    · next goes =>
      obtain ⟨⟨inner, after⟩, later, pair⟩ := Option.map_eq_some_iff.mp found
      cases pair
      exact resumes_cons goes (ih later)

/-- A tag is read exactly where a start tag is written. -/
theorem read?_eq_some_iff {text rest : Text} {tag : OpenTag} :
    read? text = some (tag, rest) ↔
      ∃ start : StartTag, start.tag = tag ∧ '<' :: text = start.print ++ rest := by
  constructor
  · intro read
    have whole := eq_append_of_read? read
    obtain ⟨name, c, after, span, rfl, named, -, letter, follows, found, rfl⟩ :=
      of_read?_eq_some read
    have balanced : Balanced span := resumes_of_attributes? found
    have next : Follows span := by
      intro d first
      obtain ⟨others, rfl⟩ := List.head?_eq_some_iff.mp first
      obtain ⟨rfl, -⟩ := List.cons.inj (eq_append_of_attributes? found)
      rcases follows with blank | rfl | slash
      · exact .inl blank
      · simp [attributes?] at found
      · exact .inr slash
    cases name with
    | nil => simp at letter
    | cons first others =>
      have chars : ∀ c ∈ others, isNameChar c = true :=
        fun c member => named c (List.mem_cons_of_mem first member)
      exact ⟨⟨⟨first, others, letter, chars⟩, span, next, balanced⟩, rfl, whole⟩
  · rintro ⟨start, rfl, whole⟩
    obtain rfl : text = start.name.text ++ (start.span ++ '>' :: rest) := by
      simpa [StartTag.print] using whole
    exact read?_append start.name start.balanced.passedOver start.follows rest

end OpenTag

theorem commentBody?_eq_none_iff {body : Text} :
    commentBody? body = none ↔ ¬ "-->" <:+: body := by
  rw [← Text.contains_iff_infix, Text.contains, commentBody?]
  simp

/-- No close tag of the name occurs in the text, in any letter case. -/
def Unclosed (name text : Text) : Prop :=
  ∀ closing : Closing, closing.key = name → ¬ closing.print <:+: text

theorem unclosed_nil (name : Text) : Unclosed name [] := by
  intro closing _ occurs
  simp [Closing.print] at occurs

theorem unclosed_cons {name text : Text} {c : Char} (beyond : Text)
    (missing : CloseTag.read? name (c :: text ++ beyond) = none) (later : Unclosed name text) :
    Unclosed name (c :: text) := by
  intro closing key occurs
  rcases infix_cons_iff.mp occurs with ⟨rest, begins⟩ | inside
  · rw [← begins, append_assoc, CloseTag.read?_print closing key] at missing
    simp at missing
  · exact later closing key inside

/-- A raw section has the name. -/
def IsRaw (name : Text) : Prop := ∃ kind : Section, kind.isRaw = true ∧ kind.tag = name

theorem any_isRaw_iff {name : Text} :
    (Section.ofTag? name).any Section.isRaw = true ↔ IsRaw name := by
  constructor
  · intro raw
    obtain ⟨kind, found, isRaw⟩ := (Option.any_eq_true _ _).mp raw
    exact ⟨kind, isRaw, by simpa using List.find?_some found⟩
  · rintro ⟨kind, isRaw, rfl⟩
    cases kind with
    | template => exact absurd isRaw (by decide)
    | script | style | localization => decide

/-- Only a comment that does not end is no piece. -/
theorem Piece.comment_of_read?_eq_none {name rest : Text} {c : Char}
    (unread : Piece.read? name c rest = none) :
    ∃ body, c :: rest = "<!--" ++ body ∧ ¬ "-->" <:+: body := by
  unfold Piece.read? at unread
  split at unread
  · next angle =>
    subst angle
    unfold Piece.atAngle at unread
    split at unread
    · next body =>
      exact ⟨body, rfl, commentBody?_eq_none_iff.mp (Option.map_eq_none_iff.mp unread)⟩
    · split at unread
      · simp at unread
      · split at unread
        · split at unread
          · simp at unread
          · split at unread <;> simp at unread
        · simp at unread
  · split at unread <;> simp at unread

namespace Block

variable {name text content closing rest : Text} {start depth offset : Nat} {e : SectionError}

theorem unclosed_of_rawContent?_eq_none (missing : rawContent? name text = none) :
    Unclosed name text := by
  induction text with
  | nil => exact unclosed_nil name
  | cons c text ih =>
    rw [rawContent?] at missing
    split at missing
    · simp at missing
    · next absent =>
      exact unclosed_cons [] (by rwa [append_nil]) (ih (Option.map_eq_none_iff.mp missing))

/-- Raw content ends at the first close tag. -/
theorem closing_of_rawContent? (found : rawContent? name text = some (content, closing, rest)) :
    CloseTag.read? name (closing ++ rest) = some (closing, rest) ∧ Unclosed name content := by
  induction text generalizing content with
  | nil => simp [rawContent?] at found
  | cons c text ih =>
    have whole := eq_append_of_rawContent? found
    rw [rawContent?] at found
    split at found
    · next closed =>
      cases found
      rw [nil_append] at whole
      exact ⟨whole ▸ closed, unclosed_nil name⟩
    · next absent =>
      obtain ⟨⟨inner, parts⟩, later, pair⟩ := Option.map_eq_some_iff.mp found
      cases pair
      obtain ⟨closed, free⟩ := ih later
      rw [whole] at absent
      exact ⟨closed, unclosed_cons _ absent free⟩

theorem closing_of_nestedContent
    (found : nestedContent name start depth offset text = .ok (content, closing, rest)) :
    CloseTag.read? name (closing ++ rest) = some (closing, rest) := by
  fun_induction nestedContent name start depth offset text generalizing content with
  | case1 => simp at found
  | case2 => simp at found
  | case3 depth offset c tail piece after read _ ends =>
    obtain ⟨-, span, rfl⟩ := Piece.depthAfter?_eq_none ends
    have whole := (Piece.eq_append_of_read? read).1
    cases found
    rw [← whole]
    exact Piece.closeTag_of_read? read
  | case4 => simp at found
  | case5 depth offset c tail piece after read _ next _ inner found' rec ih =>
    cases found
    exact ih rec

/-- Nested content runs into the end of the source, or into a comment that does not end. -/
theorem cause_of_nestedContent
    (failed : nestedContent name start depth offset text = .error e) :
    e = .unclosed name start ∨ ∃ before body, text = before ++ ("<!--" ++ body) ∧
      ¬ "-->" <:+: body ∧ e = .unterminatedComment (offset + before.byteSize) := by
  fun_induction nestedContent name start depth offset text with
  | case1 =>
    cases failed
    exact .inl rfl
  | case2 depth offset c tail unread =>
    cases failed
    obtain ⟨body, whole, unclosed⟩ := Piece.comment_of_read?_eq_none unread
    exact .inr ⟨[], body, whole, unclosed, rfl⟩
  | case3 => simp at failed
  | case4 depth offset c tail piece after read _ next _ e' rec ih =>
    cases failed
    rcases ih rec with same | ⟨before, body, rfl, unclosed, rfl⟩
    · exact .inl same
    · refine .inr ⟨piece.span ++ before, body, ?_, unclosed, ?_⟩
      · rw [(Piece.eq_append_of_read? read).1, append_assoc]
      · rw [Text.byteSize_append, Nat.add_assoc]
  | case5 => simp at failed

variable {tag : OpenTag}

theorem closing_of_contentOf
    (found : contentOf tag start offset text = .ok (content, closing, rest)) :
    CloseTag.read? tag.name (closing ++ rest) = some (closing, rest) ∧
      (IsRaw tag.name → Unclosed tag.name content) := by
  unfold contentOf at found
  split at found
  · split at found
    · next raw =>
      cases found
      obtain ⟨closed, free⟩ := closing_of_rawContent? raw
      exact ⟨closed, fun _ => free⟩
    · simp at found
  · next nested =>
    refine ⟨closing_of_nestedContent found, fun raw => ?_⟩
    exact absurd (any_isRaw_iff.mpr raw) nested

theorem cause_of_contentOf (failed : contentOf tag start offset text = .error e) :
    (e = .unclosed tag.name start ∧ (IsRaw tag.name → Unclosed tag.name text)) ∨
    ¬ IsRaw tag.name ∧ ∃ before body, text = before ++ ("<!--" ++ body) ∧
      ¬ "-->" <:+: body ∧ e = .unterminatedComment (offset + before.byteSize) := by
  unfold contentOf at failed
  split at failed
  · split at failed
    · simp at failed
    · next missing =>
      cases failed
      exact .inl ⟨rfl, fun _ => unclosed_of_rawContent?_eq_none missing⟩
  · next nested =>
    have nests : ¬ IsRaw tag.name := mt any_isRaw_iff.mpr nested
    rcases cause_of_nestedContent failed with same | comment
    · exact .inl ⟨same, fun raw => absurd raw nests⟩
    · exact .inr ⟨nests, comment⟩

end Block

namespace Block

/-- The block as it stands in the source. -/
def written (block : Block) : Text := block.opening ++ block.content ++ block.closing

/-- The byte offset just after the block. -/
def stop (block : Block) : Nat := block.offset + block.written.byteSize

/-- A block is a self-closing tag alone, or a start tag with content and a close tag of its name.
The content of a raw section holds no close tag of that section. -/
inductive Genuine : Block → Prop where
  | empty (start : StartTag) (alone : start.selfClosing = true) (offset : Nat) :
      Genuine ⟨start.key, offset, start.print, [], []⟩
  | element (start : StartTag) (opens : start.selfClosing = false) (content : Text)
      (closing : Closing) (closes : closing.key = start.key)
      (first : IsRaw start.key → Unclosed start.key content) (offset : Nat) :
      Genuine ⟨start.key, offset, start.print, content, closing.print⟩

theorem Genuine.shift {block : Block} (genuine : Genuine block) (bytes : Nat) :
    Genuine (block.shift bytes) := by
  cases genuine with
  | empty start alone offset => exact .empty start alone _
  | element start opens content closing closes first offset =>
    exact .element start opens content closing closes first _

theorem Genuine.offset_lt_stop {block : Block} (genuine : Genuine block) :
    block.offset < block.stop := by
  have begins : ∃ rest, block.written = '<' :: rest := by
    cases genuine with
    | empty start => exact ⟨_, rfl⟩
    | element start => exact ⟨_, rfl⟩
  obtain ⟨rest, shape⟩ := begins
  have angle : '<'.utf8Size = 1 := by decide
  rw [stop, shape, Text.byteSize, angle]
  omega

end Block

/-- A part of a source that belongs to no block: a comment, or a character at which neither a
comment nor a tag begins. -/
inductive Idle : Text → Text → Prop where
  | char {c : Char} {rest : Text} (uncommented : ¬ "<!--" <+: c :: rest)
      (unopened : ∀ start : StartTag, ¬ start.print <+: c :: rest) : Idle [c] rest
  | comment {body : Text} (closed : ¬ "-->" <:+: body) (rest : Text) :
      Idle ("<!--" ++ body ++ "-->") rest

/-- What is left open in a text that stands at a byte offset: a comment, an element, or a comment
inside of an element that nests. -/
inductive Fault : Nat → Text → SectionError → Prop where
  | comment {body : Text} (unclosed : ¬ "-->" <:+: body) (offset : Nat) :
      Fault offset ("<!--" ++ body) (.unterminatedComment offset)
  | element {start : StartTag} {after : Text} (opens : start.selfClosing = false)
      (unclosed : IsRaw start.key → Unclosed start.key after) (offset : Nat) :
      Fault offset (start.print ++ after) (.unclosed start.key offset)
  | inside {start : StartTag} {before body : Text} (opens : start.selfClosing = false)
      (nests : ¬ IsRaw start.key) (unclosed : ¬ "-->" <:+: body) (offset : Nat) :
      Fault offset (start.print ++ (before ++ ("<!--" ++ body)))
        (.unterminatedComment (offset + (start.print ++ before).byteSize))

/-- How a text that stands at a byte offset is laid out from its beginning on, and what that makes
of it: its blocks, or the first fault. -/
inductive Laid : Nat → Text → Except SectionError (List Block) → Prop where
  | done (offset : Nat) : Laid offset [] (.ok [])
  | skip {offset : Nat} {span rest : Text} {result : Except SectionError (List Block)}
      (idle : Idle span rest) (next : Laid (offset + span.byteSize) rest result) :
      Laid offset (span ++ rest) result
  | block {block : Block} {rest : Text} {result : Except SectionError (List Block)}
      (genuine : block.Genuine) (next : Laid block.stop rest result) :
      Laid block.offset (block.written ++ rest) (result.map (block :: ·))
  | fault {offset : Nat} {text : Text} {e : SectionError} (fault : Fault offset text e) :
      Laid offset text (.error e)

theorem Idle.of_char {c : Char} (other : c ≠ '<') (rest : Text) : Idle [c] rest := by
  refine .char (fun begins => ?_) (fun start begins => ?_)
  · exact other (cons_prefix_cons.mp begins).1.symm
  · exact other (cons_prefix_cons.mp begins).1.symm

theorem Idle.of_angle {rest : Text} (plain : ∀ body, rest ≠ '!' :: '-' :: '-' :: body)
    (unopened : OpenTag.read? rest = none) : Idle ['<'] rest := by
  refine .char ?_ ?_
  · rintro ⟨body, whole⟩
    exact plain body (List.cons.inj whole).2.symm
  · rintro start ⟨after, whole⟩
    have read := OpenTag.read?_eq_some_iff.mpr ⟨start, rfl, whole.symm⟩
    rw [unopened] at read
    simp at read

/-- A step of the scanner passes over an idle part or takes a block. -/
theorem Takes.idle_or_genuine {text span rest : Text} {block : Option Block}
    (taken : Takes text span block rest) :
    (block = none ∧ Idle span rest) ∨
      ∃ found, block = some found ∧ found.offset = 0 ∧ found.written = span ∧ found.Genuine := by
  cases taken with
  | char other => exact .inl ⟨rfl, .of_char other rest⟩
  | angle plain unopened => exact .inl ⟨rfl, .of_angle plain unopened⟩
  | @comment body inner after closed =>
    obtain ⟨-, first⟩ := (Text.cut?_eq_some_iff (by decide)).mp closed
    have free : ¬ "-->" <:+: inner := fun occurs =>
      first (occurs.trans (prefix_append _ _).isInfix)
    exact .inl ⟨rfl, .comment free rest⟩
  | empty opened alone =>
    obtain ⟨start, rfl, -⟩ := OpenTag.read?_eq_some_iff.mp opened
    refine .inr ⟨_, rfl, rfl, ?_, .empty start alone 0⟩
    simp [Block.written]
  | @element body after content closing beyond tag opened alone closed =>
    obtain ⟨start, rfl, -⟩ := OpenTag.read?_eq_some_iff.mp opened
    obtain ⟨closes, first⟩ := Block.closing_of_contentOf closed
    obtain ⟨tag, key, rfl, -⟩ :=
      CloseTag.exists_closing start.isNameChar_of_mem_key start.isAlpha_head_key closes
    exact .inr ⟨_, rfl, rfl, rfl, .element start alone content tag key first 0⟩

theorem Fails.fault {text : Text} {e : SectionError} (fails : Fails text e) (offset : Nat) :
    Fault offset text (e.shift offset) := by
  cases fails with
  | comment unclosed => exact .comment (commentBody?_eq_none_iff.mp unclosed) offset
  | @element rest after tag e opened alone unclosed =>
    obtain ⟨start, rfl, whole⟩ := OpenTag.read?_eq_some_iff.mp opened
    rw [whole]
    rcases Block.cause_of_contentOf unclosed with
      ⟨rfl, missing⟩ | ⟨nests, before, body, rfl, missing, rfl⟩
    · exact .element alone missing offset
    · have place : (start.print ++ before).byteSize = start.print.byteSize + before.byteSize :=
        Text.byteSize_append _ _
      have fault : Fault offset (start.print ++ (before ++ ("<!--" ++ body))) _ :=
        .inside alone nests missing offset
      rwa [place] at fault

/-- The scanner follows the layout of the source. -/
theorem laid_scanFrom (offset : Nat) (text : Text) : Laid offset text (scanFrom offset text) := by
  rcases scanFrom_cases text with rfl | ⟨span, block, rest, taken⟩ | ⟨e, fails⟩
  · rw [scanFrom]
    exact .done offset
  · have shorter := taken.length_lt
    have next := laid_scanFrom (offset + span.byteSize) rest
    rw [scanFrom_of_takes taken, taken.eq_append]
    rcases taken.idle_or_genuine with ⟨rfl, idle⟩ | ⟨found, rfl, zero, rfl, genuine⟩
    · have same (result : Except SectionError (List Block)) : result.map ([] ++ ·) = result := by
        cases result <;> rfl
      change Laid offset (span ++ rest) (Except.map ([] ++ ·) _)
      rw [same]
      exact .skip idle next
    · have place : (found.shift offset).offset = offset := by
        rw [Block.shift, zero, Nat.add_zero]
      have step : Laid (found.shift offset).offset ((found.shift offset).written ++ rest) _ :=
        .block (genuine.shift offset) (by rw [Block.stop, place]; exact next)
      rwa [place] at step
  · rw [scanFrom_of_fails fails]
    exact .fault (fails.fault offset)
termination_by text.length

/-- A phrase stands at a byte offset of the source, before some text. -/
def StandsAt (source : Text) (offset : Nat) (phrase after : Text) : Prop :=
  ∃ before : Text, source = before ++ (phrase ++ after) ∧ before.byteSize = offset

/-- The blocks are slices of the source, in order and disjoint. -/
structure Sliced (source : Text) (blocks : List Block) : Prop where
  genuine : ∀ block ∈ blocks, block.Genuine
  stands : ∀ block ∈ blocks, ∃ after, StandsAt source block.offset block.written after
  filled : ∀ block ∈ blocks, block.offset < block.stop
  disjoint : blocks.Pairwise fun a b => a.stop ≤ b.offset

/-- What an error says about the source: the tag that it names opens an element at that place, and
no close tag of it follows if it is a raw section; or a comment begins there and does not end. -/
inductive Caused (source : Text) : SectionError → Prop where
  | unclosed {start : StartTag} {offset : Nat} {after : Text}
      (stands : StandsAt source offset start.print after) (opens : start.selfClosing = false)
      (unclosed : IsRaw start.key → Unclosed start.key after) :
      Caused source (.unclosed start.key offset)
  | unterminatedComment {offset : Nat} {after : Text}
      (stands : StandsAt source offset "<!--" after)
      (unclosed : ¬ "-->" <:+: after) : Caused source (.unterminatedComment offset)

theorem Sliced.cons {source rest before : Text} {block : Block} {blocks : List Block}
    (genuine : block.Genuine) (whole : source = before ++ (block.written ++ rest))
    (place : before.byteSize = block.offset) (later : Sliced source blocks)
    (behind : ∀ other ∈ blocks, block.stop ≤ other.offset) : Sliced source (block :: blocks) where
  genuine := forall_mem_cons.mpr ⟨genuine, later.genuine⟩
  stands := forall_mem_cons.mpr ⟨⟨rest, before, whole, place⟩, later.stands⟩
  filled := forall_mem_cons.mpr ⟨genuine.offset_lt_stop, later.filled⟩
  disjoint := pairwise_cons.mpr ⟨behind, later.disjoint⟩

namespace Laid

variable {offset : Nat} {text : Text} {result : Except SectionError (List Block)}

/-- The blocks of a layout are slices of any source that ends with the text. -/
theorem sliced (laid : Laid offset text result) {before : Text} (place : before.byteSize = offset)
    {blocks : List Block} (ok : result = .ok blocks) :
    Sliced (before ++ text) blocks ∧ ∀ block ∈ blocks, offset ≤ block.offset := by
  induction laid generalizing before blocks with
  | done offset =>
    cases ok
    exact ⟨⟨by simp, by simp, by simp, .nil⟩, by simp⟩
  | @skip offset span rest result idle next ih =>
    have place' : (before ++ span).byteSize = offset + span.byteSize := by
      rw [Text.byteSize_append, place]
    obtain ⟨later, behind⟩ := ih place' ok
    rw [append_assoc] at later
    refine ⟨later, fun block member => ?_⟩
    have far := behind block member
    omega
  | @block block rest result genuine next ih =>
    have place' : (before ++ block.written).byteSize = block.stop := by
      rw [Text.byteSize_append, place, Block.stop]
    cases result with
    | error e => simp [Except.map] at ok
    | ok others =>
      obtain ⟨later, behind⟩ := ih place' rfl
      cases ok
      rw [append_assoc] at later
      refine ⟨later.cons genuine rfl place behind, ?_⟩
      rw [forall_mem_cons]
      refine ⟨Nat.le_refl _, fun other member => ?_⟩
      have far := behind other member
      have filled := genuine.offset_lt_stop
      omega
  | fault => simp at ok

theorem caused (laid : Laid offset text result) {before : Text} (place : before.byteSize = offset)
    {e : SectionError} (error : result = .error e) : Caused (before ++ text) e := by
  induction laid generalizing before with
  | done => simp at error
  | @skip offset span rest result idle next ih =>
    have place' : (before ++ span).byteSize = offset + span.byteSize := by
      rw [Text.byteSize_append, place]
    have later := ih place' error
    rwa [append_assoc] at later
  | @block block rest result genuine next ih =>
    cases result with
    | ok others => simp [Except.map] at error
    | error e' =>
      cases error
      have place' : (before ++ block.written).byteSize = block.stop := by
        rw [Text.byteSize_append, place, Block.stop]
      have later := ih place' rfl
      rwa [append_assoc] at later
  | @fault offset text e' fault =>
    cases error
    cases fault with
    | comment unclosed => exact .unterminatedComment ⟨before, rfl, place⟩ unclosed
    | element opens unclosed => exact .unclosed ⟨before, rfl, place⟩ opens unclosed
    | @inside start between body opens nests unclosed =>
      refine .unterminatedComment ⟨before ++ (start.print ++ between), ?_, ?_⟩ unclosed
      · simp only [append_assoc]
      · rw [Text.byteSize_append, place]

end Laid

/-- The scanner follows the layout of every source. The blocks it gives are slices of the source,
in order and disjoint, and every error it gives has the cause that it names. -/
theorem scan_slices (source : Text) :
    Laid 0 source (scan source) ∧
      (∀ blocks, scan source = .ok blocks → Sliced source blocks) ∧
      ∀ e, scan source = .error e → Caused source e := by
  have laid : Laid 0 source (scan source) := laid_scanFrom 0 source
  have empty : Text.byteSize [] = 0 := rfl
  refine ⟨laid, fun blocks ok => ?_, fun e error => ?_⟩
  · exact (laid.sliced empty ok).1
  · exact laid.caused empty error

/-- Two blocks after a character of two bytes, the first with a close tag of another name inside. -/
def sliceable : Text := "é<SCRIPT a='>'>x</b></Script ><hr/>"

def slices : List Block :=
  [⟨"script", 2, "<SCRIPT a='>'>", "x</b>", "</Script >"⟩,
    ⟨"hr", 31, "<hr/>", [], []⟩]

/-- A close tag of a longer name does not close an element. -/
def openStyle : Text := "é<Style>p</styles>"

/-- A comment that does not end, inside of an element that nests. -/
def openComment : Text := "é<template>→<!-- --</template>"

theorem scan_slices_sliceable :
    (scan sliceable = .ok slices ∧ Sliced sliceable slices) ∧
      (scan openStyle = .error (.unclosed "style".toList 2) ∧
        Caused openStyle (.unclosed "style".toList 2)) ∧
      scan openComment = .error (.unterminatedComment 15) ∧
        Caused openComment (.unterminatedComment 15) := by
  have ok : scan sliceable = .ok slices := by decide +kernel
  have unclosed : scan openStyle = .error (.unclosed "style".toList 2) := by decide +kernel
  have unterminated : scan openComment = .error (.unterminatedComment 15) := by decide +kernel
  exact ⟨⟨ok, (scan_slices sliceable).2.1 slices ok⟩,
    ⟨unclosed, (scan_slices openStyle).2.2 _ unclosed⟩,
    unterminated, (scan_slices openComment).2.2 _ unterminated⟩

end ComponentPack.Component
