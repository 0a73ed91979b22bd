import ComponentPack.Proofs.Component.Concatenation

/-!
Letter case. Tag names are compared in lower case, and everything else that a reader of components
looks for has no letters. So each reader takes of a text in lower case what it takes of the text
itself, in lower case, and the blocks and the sections of a source in lower case are those of the
source (`scan_lower`, `extract_lower`).
-/

set_option autoImplicit false

namespace ComponentPack

open List

open Component (toLower_eq_iff lower_append isNameChar_toLower)

variable {c : Char} {text rest name span : Text} {quote : Option Char}

namespace Text

theorem lower_cons (c : Char) (text : Text) : lower (c :: text) = c.toLower :: lower text := rfl

theorem lower_lower (text : Text) : lower (lower text) = lower text := by
  simp only [lower, map_map]
  exact map_congr_left fun c _ => Char.toLower_toLower_eq_toLower c

/-- A class of characters without letters does not depend on the case. -/
theorem toLower_of_no_letters {p : Char → Bool} (none : ∀ c, c.isAlpha = true → p c = false)
    (c : Char) : p c.toLower = p c := by
  cases letter : c.isAlpha with
  | true => rw [none c letter, none _ (by rwa [Char.isAlpha_toLower_eq_isAlpha])]
  | false => rw [(toLower_eq_iff letter).mpr rfl]

theorem toNat_of_isAlpha (letter : c.isAlpha = true) :
    (65 ≤ c.toNat ∧ c.toNat ≤ 90) ∨ (97 ≤ c.toNat ∧ c.toNat ≤ 122) := by
  simp only [Char.isAlpha, Char.isUpper, Char.isLower, Bool.or_eq_true, Bool.and_eq_true,
    decide_eq_true_eq, ge_iff_le, UInt32.le_iff_toNat_le] at letter
  exact letter

theorem isBlank_toLower (c : Char) : isBlank c.toLower = isBlank c := by
  refine toLower_of_no_letters (fun c letter => ?_) c
  have range := toNat_of_isAlpha letter
  simp only [isBlank, Bool.or_eq_false_iff, Bool.and_eq_false_iff, decide_eq_false_iff_not,
    beq_eq_false_iff_ne]
  omega

theorem isAsciiBlank_toLower (c : Char) : isAsciiBlank c.toLower = isAsciiBlank c := by
  refine toLower_of_no_letters (fun c letter => ?_) c
  by_contra blank
  rw [Bool.not_eq_false] at blank
  have other := of_isAsciiBlank (!Char.isAlpha ·) (by decide) blank
  simp [letter] at other

theorem utf8Size_toLower (c : Char) : c.toLower.utf8Size = c.utf8Size := by
  cases letter : c.isAlpha with
  | false => rw [(toLower_eq_iff letter).mpr rfl]
  | true =>
    -- A letter of either case has one byte.
    have single {d : Char} (letter : d.isAlpha = true) : d.utf8Size = 1 := by
      have range := toNat_of_isAlpha letter
      rw [Char.utf8Size_eq_one_iff, UInt32.le_iff_toNat_le]
      change d.toNat ≤ 127
      omega
    rw [single letter, single (by rwa [Char.isAlpha_toLower_eq_isAlpha])]

theorem byteSize_lower (text : Text) : byteSize (lower text) = byteSize text := by
  induction text with
  | nil => rfl
  | cons c text ih =>
    rw [lower_cons, byteSize, byteSize, utf8Size_toLower, ih]

theorem dropWhile_lower {p : Char → Bool} (blind : ∀ c, p c.toLower = p c) (text : Text) :
    (lower text).dropWhile p = lower (text.dropWhile p) := by
  rw [lower, dropWhile_map, show p ∘ Char.toLower = p from funext blind, lower]

theorem trim_lower (text : Text) : trim (lower text) = lower (trim text) := by
  have reversed (text : Text) : (lower text).reverse = lower text.reverse :=
    map_reverse.symm
  simp only [trim, trimEnd, trimStart, dropWhile_lower isBlank_toLower, reversed]

/-- A text in lower case begins with a character that is no letter exactly if the text does. -/
theorem lower_eq_cons_iff (other : c.isAlpha = false) :
    lower text = c :: rest ↔ ∃ after, text = c :: after ∧ lower after = rest := by
  cases text with
  | nil => simp [lower]
  | cons d text =>
    simp only [lower, map_cons, List.cons.injEq, toLower_eq_iff other]
    constructor
    · rintro ⟨rfl, rfl⟩
      exact ⟨text, ⟨rfl, rfl⟩, rfl⟩
    · rintro ⟨after, ⟨rfl, rfl⟩, rfl⟩
      exact ⟨rfl, rfl⟩

theorem getLast?_lower_eq_iff (other : c.isAlpha = false) (text : Text) :
    (lower text).getLast? = some c ↔ text.getLast? = some c := by
  simp only [lower, List.getLast?_map, Option.map_eq_some_iff, toLower_eq_iff other,
    exists_eq_right]

/-- What a reader returns in lower case: what it has taken, and the rest. -/
abbrev lowerBoth : Text × Text → Text × Text := Prod.map lower lower

section Phrases

variable {phrase : Text} (letterless : phrase.any Char.isAlpha = false)

include letterless

theorem isPrefixOf?_lower (text : Text) :
    phrase.isPrefixOf? (lower text) = (phrase.isPrefixOf? text).map lower := by
  induction phrase generalizing text with
  | nil => rfl
  | cons c phrase ih =>
    cases text with
    | nil => rfl
    | cons d text =>
      obtain ⟨other, letterless⟩ := Bool.or_eq_false_iff.mp letterless
      have same : (c == d.toLower) = (c == d) := by
        rw [Bool.eq_iff_iff, beq_iff_eq, beq_iff_eq, eq_comm, toLower_eq_iff other, eq_comm]
      change (if (c == d.toLower) = true then phrase.isPrefixOf? (lower text) else none) =
        Option.map lower (if (c == d) = true then phrase.isPrefixOf? text else none)
      rw [same, ih letterless]
      split <;> rfl

theorem cut?_lower (text : Text) :
    cut? phrase (lower text) = (cut? phrase text).map lowerBoth := by
  induction text with
  | nil =>
    change (if phrase.isEmpty = true then _ else _) = Option.map lowerBoth (if _ then _ else _)
    split <;> rfl
  | cons c text ih =>
    have here := isPrefixOf?_lower letterless (c :: text)
    rw [lower_cons] at here ⊢
    rw [cut?, here, cut?]
    cases phrase.isPrefixOf? (c :: text) with
    | some tail => rfl
    | none =>
      dsimp only [Option.map_none]
      rw [ih]
      cases cut? phrase text <;> rfl

end Phrases

end Text

namespace Component

open Text (lower lowerBoth lower_cons lower_lower lower_eq_cons_iff)

namespace OpenTag

/-- A tag as it stands in the source in lower case. -/
def lower (tag : OpenTag) : OpenTag := { tag with written := Text.lower tag.written }

/-- The quote that is open after a character of the attributes. -/
def quoteAfter (quote : Option Char) (c : Char) : Option Char :=
  match quote with
  | some q => if c = q then none else some q
  | none => if c = '"' ∨ c = '\'' then some c else none

theorem attributes?_eq_ite (quote : Option Char) (c : Char) (rest : Text) :
    attributes? quote (c :: rest) =
      if quote = none ∧ c = '>' then some ([], rest)
      else (attributes? (quoteAfter quote c) rest).map (Prod.map (c :: ·) id) := by
  conv_lhs => unfold attributes?
  rfl

theorem quoteAfter_toLower (letterless : ∀ q ∈ quote, q.isAlpha = false) (c : Char) :
    quoteAfter quote c.toLower = quoteAfter quote c := by
  cases quote with
  | some q => simp only [quoteAfter, toLower_eq_iff (letterless q rfl)]
  | none =>
    cases letter : c.isAlpha with
    | false => rw [(toLower_eq_iff letter).mpr rfl]
    | true =>
      have unquoted {d : Char} (letter : d.isAlpha = true) : quoteAfter none d = none := by
        refine if_neg ?_
        rintro (rfl | rfl) <;> exact absurd letter (by decide)
      rw [unquoted letter, unquoted (by rwa [Char.isAlpha_toLower_eq_isAlpha])]

theorem letterless_quoteAfter (letterless : ∀ q ∈ quote, q.isAlpha = false) (c : Char) :
    ∀ q ∈ quoteAfter quote c, q.isAlpha = false := by
  intro q opened
  unfold quoteAfter at opened
  split at opened
  · split at opened
    · cases opened
    · cases opened
      exact letterless q rfl
  · split at opened
    · next quotes =>
      cases opened
      rcases quotes with rfl | rfl <;> rfl
    · cases opened

theorem attributes?_lower (letterless : ∀ q ∈ quote, q.isAlpha = false) (text : Text) :
    attributes? quote (Text.lower text) = (attributes? quote text).map lowerBoth := by
  induction text generalizing quote with
  | nil => rfl
  | cons c text ih =>
    rw [lower_cons, attributes?_eq_ite, attributes?_eq_ite, quoteAfter_toLower letterless,
      ih (letterless_quoteAfter letterless c)]
    simp only [toLower_eq_iff (show '>'.isAlpha = false by decide)]
    split
    · rfl
    · cases attributes? (quoteAfter quote c) text <;> rfl

theorem isNameChar_of_mem_lower (named : ∀ c ∈ name, isNameChar c = true) :
    ∀ c ∈ Text.lower name, isNameChar c = true := by
  intro c member
  obtain ⟨d, among, rfl⟩ := List.mem_map.mp member
  rw [isNameChar_toLower]
  exact named d among

theorem read?_lower (text : Text) :
    read? (Text.lower text) = (read? text).map (Prod.map lower Text.lower) := by
  rcases exists_name text with named | ⟨name, c, rest, rfl, named, stop⟩
  · rw [read?_eq_none_of_named named, read?_eq_none_of_named (isNameChar_of_mem_lower named)]
    rfl
  · have begins : (Text.lower name).head?.any Char.isAlpha = name.head?.any Char.isAlpha := by
      rw [Text.lower, List.head?_map, Option.any_map]
      exact congrArg name.head?.any (funext Char.isAlpha_toLower_eq_isAlpha)
    have follows : (Text.isAsciiBlank c.toLower = true ∨ c.toLower = '>' ∨ c.toLower = '/') ↔
        (Text.isAsciiBlank c = true ∨ c = '>' ∨ c = '/') := by
      rw [Text.isAsciiBlank_toLower, toLower_eq_iff (by decide), toLower_eq_iff (by decide)]
    have stop' : isNameChar c.toLower = false := by rwa [isNameChar_toLower]
    rw [read?_name named stop, lower_append, lower_cons,
      read?_name (isNameChar_of_mem_lower named) stop', begins, ← lower_cons,
      attributes?_lower (by simp)]
    simp only [follows]
    split
    · cases attributes? none (c :: rest) with
      | none => rfl
      | some found =>
        have closes : decide ((Text.lower found.1).getLast? = some '/') =
            decide (found.1.getLast? = some '/') := by
          rw [decide_eq_decide]
          exact Text.getLast?_lower_eq_iff (by decide) found.1
        have written : Text.lower ('<' :: name ++ found.1 ++ ['>']) =
            '<' :: Text.lower name ++ Text.lower found.1 ++ ['>'] := by
          rw [lower_append, lower_append, lower_cons]
          rfl
        simp only [Option.map_some, Prod.map_apply, Prod.map_fst, Prod.map_snd, lower, lower_lower,
          closes, written]
    · rfl

end OpenTag

namespace CloseTag

theorem read?_lower_of_some (read : read? name text = some (span, rest)) :
    read? name (lower text) = some (lower span, lower rest) := by
  obtain ⟨spelled, gap, spells, blank, rfl, rfl⟩ := read?_eq_some_iff.mp read
  refine read?_eq_some_iff.mpr ⟨lower spelled, lower gap, by rw [lower_lower, spells], ?_, ?_, ?_⟩
  · intro c member
    obtain ⟨d, among, rfl⟩ := List.mem_map.mp member
    rw [Text.isAsciiBlank_toLower]
    exact blank d among
  · rw [lower_append, lower_append]
    rfl
  · rw [lower_append]

theorem exists_of_read?_lower (read : read? name (lower text) = some (span, rest)) :
    ∃ found, read? name text = some found := by
  obtain ⟨spelled, gap, spells, blank, rfl, whole⟩ := read?_eq_some_iff.mp read
  simp only [List.cons_append, List.append_assoc] at whole
  obtain ⟨slash, rfl, afterAngle⟩ := (lower_eq_cons_iff (by decide)).mp whole
  obtain ⟨named, rfl, afterSlash⟩ := (lower_eq_cons_iff (by decide)).mp afterAngle
  obtain ⟨spelled', blanks, rfl, rfl, afterName⟩ := List.map_eq_append_iff.mp afterSlash
  obtain ⟨gap', ends, rfl, rfl, afterGap⟩ := List.map_eq_append_iff.mp afterName
  obtain ⟨rest', rfl, -⟩ := (lower_eq_cons_iff (by decide)).mp afterGap
  refine ⟨(_, rest'), read?_eq_some_iff.mpr ⟨spelled', gap', ?_, ?_, rfl, ?_⟩⟩
  · rw [← spells]
    exact (lower_lower spelled').symm
  · intro c member
    rw [← Text.isAsciiBlank_toLower]
    exact blank _ (List.mem_map_of_mem member)
  · simp only [List.cons_append, List.append_assoc, List.nil_append]

theorem read?_lower (name text : Text) :
    read? name (lower text) = (read? name text).map lowerBoth := by
  cases read : read? name text with
  | some found => exact read?_lower_of_some read
  | none =>
    rw [Option.map_none, Option.eq_none_iff_forall_ne_some]
    rintro ⟨span, rest⟩ lowered
    obtain ⟨found, again⟩ := exists_of_read?_lower lowered
    rw [read] at again
    cases again

theorem beginsIn_lower (name text : Text) : beginsIn name (lower text) = beginsIn name text := by
  rw [beginsIn, lower_lower, beginsIn]

end CloseTag

theorem commentBody?_lower (text : Text) :
    commentBody? (lower text) = (commentBody? text).map lowerBoth :=
  Text.cut?_lower (by decide) text

theorem lower_ne_comment (plain : ∀ body, text ≠ '!' :: '-' :: '-' :: body) (body : Text) :
    lower text ≠ '!' :: '-' :: '-' :: body := by
  intro lowered
  obtain ⟨_, rfl, lowered'⟩ := (lower_eq_cons_iff (by decide)).mp lowered
  obtain ⟨_, rfl, lowered''⟩ := (lower_eq_cons_iff (by decide)).mp lowered'
  obtain ⟨_, rfl, -⟩ := (lower_eq_cons_iff (by decide)).mp lowered''
  exact plain _ rfl

namespace Piece

/-- A piece as it stands in the source in lower case. -/
def lower : Piece → Piece
  | plain span => plain (Text.lower span)
  | opening span => opening (Text.lower span)
  | closing span => closing (Text.lower span)

theorem span_lower (piece : Piece) : piece.lower.span = Text.lower piece.span := by
  cases piece <;> rfl

theorem depthAfter?_lower (piece : Piece) (depth : Nat) :
    piece.lower.depthAfter? depth = piece.depthAfter? depth := by
  cases piece with
  | plain | opening => rfl
  | closing => cases depth <;> rfl

theorem atAngle_lower (name rest : Text) :
    atAngle name (Text.lower rest) = (atAngle name rest).map (Prod.map lower Text.lower) := by
  by_cases comment : ∃ body, rest = '!' :: '-' :: '-' :: body
  · obtain ⟨body, rfl⟩ := comment
    change atAngle name ('!' :: '-' :: '-' :: Text.lower body) = _
    rw [atAngle, atAngle, commentBody?_lower]
    cases commentBody? body with
    | none => rfl
    | some found =>
      simp only [Option.map_some, Prod.map, lower, lower_append]
      rfl
  · have plain : ∀ body, rest ≠ '!' :: '-' :: '-' :: body := not_exists.mp comment
    rw [atAngle.eq_2 _ _ plain, atAngle.eq_2 _ _ (lower_ne_comment plain),
      show '<' :: Text.lower rest = Text.lower ('<' :: rest) from rfl, CloseTag.read?_lower,
      OpenTag.read?_lower]
    cases CloseTag.read? name ('<' :: rest) with
    | some found => rfl
    | none =>
      cases OpenTag.read? rest with
      | none => rfl
      | some found =>
        simp only [Option.map_none, Option.map_some, Prod.map, OpenTag.lower,
          CloseTag.beginsIn_lower]
        split
        · rfl
        · split <;> rfl

theorem atBrace_lower (name rest : Text) :
    atBrace name (Text.lower rest) = Prod.map lower Text.lower (atBrace name rest) := by
  by_cases double : ∃ body, rest = '\x7b' :: body
  · obtain ⟨body, rfl⟩ := double
    change atBrace name ('\x7b' :: Text.lower body) = _
    rw [atBrace, atBrace, Text.cut?_lower (by decide)]
    cases Text.cut? ['\x7d', '\x7d'] body with
    | none => rfl
    | some found =>
      simp only [Option.map_some, lowerBoth, Prod.map, CloseTag.beginsIn_lower]
      split
      · rfl
      · simp only [lower, lower_append]
        rfl
  · have single : ∀ body, rest ≠ '\x7b' :: body := not_exists.mp double
    have single' : ∀ body, Text.lower rest ≠ '\x7b' :: body := by
      intro body lowered
      obtain ⟨_, rfl, -⟩ := (lower_eq_cons_iff (by decide)).mp lowered
      exact single _ rfl
    rw [atBrace.eq_2 _ _ single, atBrace.eq_2 _ _ single']
    rfl

theorem read?_lower (name : Text) (c : Char) (rest : Text) :
    read? name c.toLower (Text.lower rest) =
      (read? name c rest).map (Prod.map lower Text.lower) := by
  simp only [read?, toLower_eq_iff (show '<'.isAlpha = false by decide),
    toLower_eq_iff (show '\x7b'.isAlpha = false by decide)]
  split
  · exact atAngle_lower name rest
  · split
    · exact congrArg some (atBrace_lower name rest)
    · rfl

theorem read?_lower_of_some {after : Text} {piece : Piece}
    (read : read? name c rest = some (piece, after)) :
    read? name c.toLower (Text.lower rest) = some (piece.lower, Text.lower after) := by
  rw [read?_lower, read]
  rfl

end Piece

/-- The content of an element in lower case, its close tag and the rest. -/
abbrev lowerParts : Text × Text × Text → Text × Text × Text := Prod.map lower lowerBoth

namespace Block

/-- A block of the source in lower case. -/
def lower (block : Block) : Block :=
  { block with
    opening := Text.lower block.opening
    content := Text.lower block.content
    closing := Text.lower block.closing }

theorem rawContent?_lower (name text : Text) :
    rawContent? name (Text.lower text) = (rawContent? name text).map lowerParts := by
  induction text with
  | nil => rfl
  | cons c text ih =>
    rw [lower_cons, rawContent?, rawContent?, ← lower_cons, CloseTag.read?_lower]
    cases CloseTag.read? name (c :: text) with
    | some found => rfl
    | none =>
      simp only [Option.map_none, ih]
      cases rawContent? name text <;> rfl

theorem nestedContent_lower (name : Text) (start depth offset : Nat) (text : Text) :
    nestedContent name start depth offset (Text.lower text) =
      (nestedContent name start depth offset text).map lowerParts := by
  fun_induction nestedContent name start depth offset text with
  | case1 depth offset => rw [Text.lower, List.map_nil, nestedContent]; rfl
  | case2 depth offset c rest unread =>
    have unread' : Piece.read? name c.toLower (Text.lower rest) = none := by
      rw [Piece.read?_lower, unread]
      rfl
    rw [lower_cons, nestedContent]
    split
    · rfl
    · next found => simp [unread'] at found
  | case3 depth offset c rest piece after read _ ends =>
    obtain ⟨rfl, -⟩ := Piece.depthAfter?_eq_none ends
    rw [← Piece.depthAfter?_lower] at ends
    rw [lower_cons, nestedContent_closing (Piece.read?_lower_of_some read) ends, Piece.span_lower]
    rfl
  | case4 depth offset c rest piece after read _ next deeper e failed ih =>
    rw [← Piece.depthAfter?_lower] at deeper
    rw [lower_cons, nestedContent_cons (Piece.read?_lower_of_some read) deeper, Piece.span_lower,
      Text.byteSize_lower, ih, failed]
    rfl
  | case5 depth offset c rest piece after read _ next deeper content found done ih =>
    rw [← Piece.depthAfter?_lower] at deeper
    rw [lower_cons, nestedContent_cons (Piece.read?_lower_of_some read) deeper, Piece.span_lower,
      Text.byteSize_lower, ih, done]
    simp only [Except.map, lowerParts, Prod.map, lower_append]

theorem contentOf_lower (tag : OpenTag) (start offset : Nat) (text : Text) :
    contentOf tag.lower start offset (Text.lower text) =
      (contentOf tag start offset text).map lowerParts := by
  unfold contentOf
  rw [show tag.lower.name = tag.name from rfl]
  split
  · rw [rawContent?_lower]
    cases rawContent? tag.name text <;> rfl
  · exact nestedContent_lower tag.name start 0 offset text

end Block

theorem lower_comment (inner : Text) :
    lower ("<!--" ++ inner ++ "-->") =
      "<!--" ++ lower inner ++ "-->" := by
  rw [lower_append, lower_append]
  rfl

/-- A step over a text is a step over the text in lower case. -/
theorem Takes.lower {block : Option Block} (taken : Takes text span block rest) :
    Takes (Text.lower text) (Text.lower span) (block.map Block.lower) (Text.lower rest) := by
  cases taken with
  | char other => exact .char (mt (toLower_eq_iff (by decide)).mp other)
  | angle plain unopened =>
    have unopened' := OpenTag.read?_lower rest
    rw [unopened] at unopened'
    exact .angle (lower_ne_comment plain) unopened'
  | @comment body inner after closed =>
    have closed' := commentBody?_lower body
    rw [closed] at closed'
    rw [lower_comment]
    exact .comment closed'
  | @empty rest after tag opened alone =>
    have opened' := OpenTag.read?_lower rest
    rw [opened] at opened'
    exact .empty opened' alone
  | @element rest after content closing beyond tag opened alone closed =>
    have opened' := OpenTag.read?_lower rest
    have closed' := Block.contentOf_lower tag 0 tag.written.byteSize after
    rw [opened] at opened'
    rw [closed, ← Text.byteSize_lower tag.written] at closed'
    rw [lower_append, lower_append]
    exact .element opened' alone closed'

theorem Fails.lower {e : SectionError} (fails : Fails text e) : Fails (Text.lower text) e := by
  cases fails with
  | @comment body unclosed =>
    have unclosed' := commentBody?_lower body
    rw [unclosed] at unclosed'
    exact .comment unclosed'
  | @element rest after tag _ opened alone unclosed =>
    have opened' := OpenTag.read?_lower rest
    have unclosed' := Block.contentOf_lower tag 0 tag.written.byteSize after
    rw [opened] at opened'
    rw [unclosed, ← Text.byteSize_lower tag.written] at unclosed'
    exact .element opened' alone unclosed'

theorem scanFrom_lower (offset : Nat) (text : Text) :
    scanFrom offset (lower text) = (scanFrom offset text).map (List.map Block.lower) := by
  rcases scanFrom_cases text with rfl | ⟨span, block, rest, taken⟩ | ⟨e, failed⟩
  · rw [lower, map_nil, scanFrom]
    rfl
  · have shorter := taken.length_lt
    rw [scanFrom_of_takes taken, scanFrom_of_takes taken.lower, Text.byteSize_lower,
      scanFrom_lower (offset + span.byteSize) rest]
    cases scanFrom (offset + span.byteSize) rest with
    | error e => rfl
    | ok blocks => cases block <;> rfl
  · rw [scanFrom_of_fails failed, scanFrom_of_fails failed.lower]
    rfl
termination_by text.length

theorem scan_lower (source : Text) :
    scan (lower source) = (scan source).map (List.map Block.lower) :=
  scanFrom_lower 0 source

namespace Sections

/-- The sections with all letters in lower case. -/
def lower (sections : Sections) : Sections where
  template := Text.lower sections.template
  script := Text.lower sections.script
  style := Text.lower sections.style
  localization := Text.lower sections.localization

theorem contents_lower (kind : Section) (blocks : List Block) :
    contents kind (blocks.map Block.lower) = (contents kind blocks).map Text.lower := by
  rw [contents, contents, filter_map, map_map, map_map]
  exact map_congr_left fun block _ => Text.trim_lower block.content

theorem countError?_lower (kinds : List Section) (blocks : List Block) :
    countError? kinds (blocks.map Block.lower) = countError? kinds blocks := by
  simp only [countError?, contents_lower, length_map]

theorem headD_contents_lower (kind : Section) (blocks : List Block) {absent : Text}
    (same : Text.lower absent = absent) :
    (contents kind (blocks.map Block.lower)).headD absent =
      Text.lower ((contents kind blocks).headD absent) := by
  rw [contents_lower]
  cases contents kind blocks with
  | nil => exact same.symm
  | cons first others => rfl

theorem ofBlocks_lower (blocks : List Block) :
    ofBlocks (blocks.map Block.lower) = (ofBlocks blocks).map lower := by
  rw [ofBlocks, ofBlocks, countError?_lower]
  cases countError? Section.all blocks with
  | some e => rfl
  | none =>
    have empty : Text.lower [] = [] := rfl
    have object : Text.lower noLocalization = noLocalization := by decide
    simp only [Except.map, lower, headD_contents_lower _ blocks empty,
      headD_contents_lower _ blocks object]

end Sections

/-- Extraction does not depend on letter case. A source in lower case has the sections of the
source, in lower case, and so it is with the localization alone; one fails exactly if the other
does, with the same error. -/
theorem extract_lower (source : Text) :
    Sections.extract (lower source) = (Sections.extract source).map Sections.lower ∧
      extractLocalization (lower source) = (extractLocalization source).map lower := by
  constructor
  · rw [Sections.extract, Sections.extract, scan_lower]
    cases scan source with
    | error e => rfl
    | ok blocks => exact Sections.ofBlocks_lower blocks
  · rw [extractLocalization, extractLocalization, scan_lower]
    cases scan source with
    | error e => rfl
    | ok blocks =>
      have object : lower Sections.noLocalization = Sections.noLocalization := by decide
      simp only [Except.map, Sections.countError?_lower,
        Sections.headD_contents_lower _ blocks object]
      cases Sections.countError? [.localization] blocks <;> rfl

end Component

end ComponentPack
