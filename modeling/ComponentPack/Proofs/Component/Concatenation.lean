import ComponentPack.Proofs.Component.Extraction
import ComponentPack.Proofs.Component.Lookahead
import Mathlib.Logic.Relation

/-!
Sources one after the other. The scanner goes over a source in steps, and what a step takes is the
same wherever it stands. A lone `<` apart, it is also the same whatever follows: so the blocks of
two sources one after the other are those of the first and those of the second.
-/

set_option autoImplicit false

namespace ComponentPack.Component

open List OpenTag

variable {rest text span : Text} {block : Option Block}

/-- The same error, with that many bytes before the source. -/
def SectionError.shift (bytes : Nat) : SectionError → SectionError
  | requiredCount kind found => requiredCount kind found
  | optionalCount kind found => optionalCount kind found
  | unclosed tag offset => unclosed tag (bytes + offset)
  | unterminatedComment offset => unterminatedComment (bytes + offset)
  | missingDefaultExport => missingDefaultExport

/-- The same block, with that many bytes before the source. -/
def Block.shift (bytes : Nat) (block : Block) : Block :=
  { block with offset := bytes + block.offset }

theorem SectionError.shift_shift (a b : Nat) (e : SectionError) :
    (e.shift b).shift a = e.shift (a + b) := by
  cases e <;> simp [shift, Nat.add_assoc]

theorem Block.shift_shift (a b : Nat) (block : Block) :
    (block.shift b).shift a = block.shift (a + b) := by
  simp [shift, Nat.add_assoc]

namespace Block

theorem nestedContent_shift (name : Text) (bytes start depth offset : Nat) (text : Text) :
    nestedContent name (bytes + start) depth (bytes + offset) text =
      (nestedContent name start depth offset text).mapError (SectionError.shift bytes) := by
  fun_induction nestedContent name start depth offset text with
  | case1 depth offset => rw [nestedContent]; rfl
  | case2 depth offset c rest unread =>
    rw [nestedContent]
    split
    · rfl
    · next found => simp [unread] at found
  | case3 depth offset c rest piece after read _ ends =>
    obtain ⟨rfl, -⟩ := Piece.depthAfter?_eq_none ends
    exact nestedContent_closing read ends _ _
  | case4 depth offset c rest piece after read _ next deeper e failed ih =>
    rw [nestedContent_cons read deeper, Nat.add_assoc, ih, failed]
    rfl
  | case5 depth offset c rest piece after read _ next deeper content found done ih =>
    rw [nestedContent_cons read deeper, Nat.add_assoc, ih, done]
    rfl

theorem contentOf_shift (tag : OpenTag) (bytes start offset : Nat) (text : Text) :
    contentOf tag (bytes + start) (bytes + offset) text =
      (contentOf tag start offset text).mapError (SectionError.shift bytes) := by
  unfold contentOf
  split
  · cases rawContent? tag.name text <;> rfl
  · exact nestedContent_shift tag.name bytes start 0 offset text

end Block

/-- One step of the scanner on a text: the span it takes, the block that the span holds if any, as
if the text began there, and the rest of the text. -/
inductive Takes : Text → Text → Option Block → Text → Prop where
  | char {c : Char} {rest : Text} (other : c ≠ '<') : Takes (c :: rest) [c] none rest
  | angle {rest : Text} (plain : ∀ body, rest ≠ '!' :: '-' :: '-' :: body)
      (unopened : OpenTag.read? rest = none) : Takes ('<' :: rest) ['<'] none rest
  | comment {body inner after : Text} (closed : commentBody? body = some (inner, after)) :
      Takes ('<' :: '!' :: '-' :: '-' :: body) ("<!--" ++ inner ++ "-->") none after
  | empty {rest after : Text} {tag : OpenTag} (opened : OpenTag.read? rest = some (tag, after))
      (alone : tag.selfClosing = true) :
      Takes ('<' :: rest) tag.written (some ⟨tag.name, 0, tag.written, [], []⟩) after
  | element {rest after content closing beyond : Text} {tag : OpenTag}
      (opened : OpenTag.read? rest = some (tag, after)) (alone : tag.selfClosing = false)
      (closed : Block.contentOf tag 0 tag.written.byteSize after = .ok (content, closing, beyond)) :
      Takes ('<' :: rest) (tag.written ++ content ++ closing)
        (some ⟨tag.name, 0, tag.written, content, closing⟩) beyond

theorem OpenTag.not_comment_of_read? {after : Text} {tag : OpenTag}
    (opened : OpenTag.read? rest = some (tag, after)) (body : Text) :
    rest ≠ '!' :: '-' :: '-' :: body := by
  rintro rfl
  simp [OpenTag.read?, OpenTag.isNameChar] at opened

theorem Block.contentOf_anywhere {tag : OpenTag} {start offset : Nat} {content closing : Text}
    (named : ∀ c ∈ tag.name, OpenTag.isNameChar c = true)
    (found : contentOf tag start offset text = .ok (content, closing, rest)) (start' offset' : Nat)
    :
    contentOf tag start' offset' text = .ok (content, closing, rest) := by
  have moved := contentOf_append named found start' offset' []
  rwa [append_nil, append_nil] at moved

namespace Takes

variable {text span rest : Text} {block : Option Block}

theorem eq_append (taken : Takes text span block rest) : text = span ++ rest := by
  cases taken with
  | char other => rfl
  | angle plain unopened => rfl
  | comment closed =>
    have whole := Text.eq_append_of_cut? closed
    simp [whole]
  | empty opened alone => exact eq_append_of_read? opened
  | element opened alone closed =>
    rw [eq_append_of_read? opened, Block.eq_append_of_contentOf closed]
    simp only [append_assoc]

theorem length_lt (taken : Takes text span block rest) : rest.length < text.length := by
  cases taken with
  | char other => exact Nat.lt_succ_self _
  | angle plain unopened => exact Nat.lt_succ_self _
  | comment closed =>
    have shorter := Text.length_le_of_cut? closed
    simp only [length_cons]
    omega
  | empty opened alone =>
    have shorter := length_le_of_read? opened
    simp only [length_cons]
    omega
  | element opened alone closed =>
    have shorter := length_le_of_read? opened
    have shorter' := Block.length_le_of_contentOf closed
    simp only [length_cons]
    omega

theorem rest_unique {span' rest' : Text} {block' : Option Block}
    (taken : Takes text span block rest) (taken' : Takes text span' block' rest') :
    rest = rest' := by
  cases taken with
  | char other =>
    cases taken' with
    | char => rfl
    | angle | comment | empty | element => exact absurd rfl other
  | angle plain unopened =>
    cases taken' with
    | char other => exact absurd rfl other
    | angle => rfl
    | comment => exact absurd rfl (plain _)
    | empty opened | element opened => simp [unopened] at opened
  | comment closed =>
    cases taken' with
    | char other => exact absurd rfl other
    | angle plain => exact absurd rfl (plain _)
    | comment closed' =>
      rw [closed] at closed'
      cases closed'
      rfl
    | empty opened | element opened => exact absurd rfl (not_comment_of_read? opened _)
  | empty opened alone =>
    cases taken' with
    | char other => exact absurd rfl other
    | angle plain unopened => simp [unopened] at opened
    | comment => exact absurd rfl (not_comment_of_read? opened _)
    | empty opened' =>
      rw [opened] at opened'
      cases opened'
      rfl
    | element opened' alone' =>
      rw [opened] at opened'
      cases opened'
      simp [alone] at alone'
  | element opened alone closed =>
    cases taken' with
    | char other => exact absurd rfl other
    | angle plain unopened => simp [unopened] at opened
    | comment => exact absurd rfl (not_comment_of_read? opened _)
    | empty opened' alone' =>
      rw [opened] at opened'
      cases opened'
      simp [alone] at alone'
    | element opened' alone' closed' =>
      rw [opened] at opened'
      cases opened'
      rw [closed] at closed'
      cases closed'
      rfl

/-- A step is the same whatever follows, that over a lone `<` apart. -/
theorem append (taken : Takes text span block rest)
    (tight : ∀ body, text = '<' :: body →
      (∃ inner, body = '!' :: '-' :: '-' :: inner) ∨ (OpenTag.read? body).isSome = true)
    (more : Text) : Takes (text ++ more) span block (rest ++ more) := by
  cases taken with
  | char other => exact .char other
  | angle plain unopened =>
    rcases tight _ rfl with ⟨inner, comment⟩ | opened
    · exact absurd comment (plain inner)
    · simp [unopened] at opened
  | comment closed => exact .comment (Text.cut?_append_right (by decide) closed more)
  | empty opened alone => exact .empty (OpenTag.read?_append_right opened more) alone
  | element opened alone closed =>
    exact .element (OpenTag.read?_append_right opened more) alone
      (Block.contentOf_append (isNameChar_of_read? opened) closed _ _ more)

end Takes

theorem byteSize_comment (inner : Text) :
    Text.byteSize ("<!--" ++ inner ++ "-->") = inner.byteSize + 7 := by
  have opening : Text.byteSize "<!--" = 4 := by decide
  have closing : Text.byteSize "-->" = 3 := by decide
  rw [Text.byteSize_append, Text.byteSize_append, opening, closing]
  omega

theorem scanFrom_of_takes (taken : Takes text span block rest) (offset : Nat) :
    scanFrom offset text = (scanFrom (offset + span.byteSize) rest).map
      ((block.map (Block.shift offset)).toList ++ ·) := by
  cases taken with
  | @char c rest other =>
    have step : scanFrom offset ([c] ++ rest) = _ :=
      scanFrom_text (by simpa using other.symm) offset rest
    rw [singleton_append] at step
    rw [step]
    cases scanFrom (offset + Text.byteSize [c]) rest <;> rfl
  | angle plain unopened =>
    rw [scanFrom]
    · split
      · rw [show Text.byteSize ['<'] = 1 by decide]
        cases scanFrom (offset + 1) rest <;> rfl
      · next opened => simp [unopened] at opened
    · exact plain
  | @comment body inner after closed =>
    rw [scanFrom, byteSize_comment]
    split
    · next unclosed => simp [closed] at unclosed
    · next found =>
      rw [closed] at found
      cases found
      cases scanFrom (offset + (inner.byteSize + 7)) rest <;> rfl
  | @empty body after tag opened alone =>
    rw [scanFrom]
    · split
      · next unopened => simp [opened] at unopened
      · next found =>
        rw [opened] at found
        cases found
        rw [if_pos alone]
        cases scanFrom (offset + tag.written.byteSize) rest <;> rfl
    · exact not_comment_of_read? opened
  | @element body after content closing beyond tag opened alone closed =>
    have closed' := Block.contentOf_anywhere (isNameChar_of_read? opened) closed offset
      (offset + tag.written.byteSize)
    rw [scanFrom]
    · split
      · next unopened => simp [opened] at unopened
      · next found =>
        rw [opened] at found
        cases found
        rw [if_neg (by simp [alone])]
        split
        · next e failed => simp [closed'] at failed
        · next parts =>
          rw [closed'] at parts
          cases parts
          rw [Text.byteSize_append, Text.byteSize_append, ← Nat.add_assoc, ← Nat.add_assoc]
          cases scanFrom (offset + tag.written.byteSize + content.byteSize + closing.byteSize)
            rest <;> rfl
    · exact not_comment_of_read? opened

/-- Where the scanner gives up, and its error as if the text began there. -/
inductive Fails : Text → SectionError → Prop where
  | comment {body : Text} (unclosed : commentBody? body = none) :
      Fails ('<' :: '!' :: '-' :: '-' :: body) (.unterminatedComment 0)
  | element {rest after : Text} {tag : OpenTag} {e : SectionError}
      (opened : OpenTag.read? rest = some (tag, after)) (alone : tag.selfClosing = false)
      (unclosed : Block.contentOf tag 0 tag.written.byteSize after = .error e) :
      Fails ('<' :: rest) e

theorem scanFrom_of_fails {e : SectionError} (fails : Fails text e) (offset : Nat) :
    scanFrom offset text = .error (e.shift offset) := by
  cases fails with
  | comment unclosed =>
    rw [scanFrom]
    split
    · rfl
    · next found => simp [unclosed] at found
  | @element rest after tag _ opened alone unclosed =>
    have failed : Block.contentOf tag offset (offset + tag.written.byteSize) after =
        .error (e.shift offset) := by
      have moved := Block.contentOf_shift tag offset 0 tag.written.byteSize after
      rwa [unclosed] at moved
    rw [scanFrom]
    · split
      · next unopened => simp [opened] at unopened
      · next found =>
        rw [opened] at found
        cases found
        rw [if_neg (by simp [alone])]
        split
        · next e' failed' =>
          rw [failed] at failed'
          cases failed'
          rfl
        · next parts => simp [failed] at parts
    · exact not_comment_of_read? opened

/-- Where the scanner takes no step, it is at the end of the text or it fails. -/
theorem scanFrom_cases (text : Text) :
    text = [] ∨ (∃ span block rest, Takes text span block rest) ∨ ∃ e, Fails text e := by
  rcases text with _ | ⟨c, rest⟩
  · exact .inl rfl
  right
  by_cases angle : c = '<'
  · subst angle
    by_cases comment : ∃ body, rest = '!' :: '-' :: '-' :: body
    · obtain ⟨body, rfl⟩ := comment
      cases closed : commentBody? body with
      | some parts => exact .inl ⟨_, _, _, .comment closed⟩
      | none => exact .inr ⟨_, .comment closed⟩
    · have plain : ∀ body, rest ≠ '!' :: '-' :: '-' :: body :=
        fun body same => comment ⟨body, same⟩
      cases opened : OpenTag.read? rest with
      | none => exact .inl ⟨_, _, _, .angle plain opened⟩
      | some found =>
        obtain ⟨tag, after⟩ := found
        cases alone : tag.selfClosing with
        | true => exact .inl ⟨_, _, _, .empty opened alone⟩
        | false =>
          cases closed : Block.contentOf tag 0 tag.written.byteSize after with
          | ok parts => exact .inl ⟨_, _, _, .element opened alone closed⟩
          | error e => exact .inr ⟨e, .element opened alone closed⟩
  · exact .inl ⟨_, _, _, .char angle⟩

/-- Bytes before a text move its blocks and its error by as much. -/
theorem scanFrom_shift (text : Text) (bytes offset : Nat) :
    scanFrom (bytes + offset) text =
      ((scanFrom offset text).mapError (SectionError.shift bytes)).map
        (List.map (Block.shift bytes)) := by
  rcases scanFrom_cases text with rfl | ⟨span, block, rest, taken⟩ | ⟨e, failed⟩
  · simp [scanFrom, Except.mapError, Except.map]
  · have shorter := taken.length_lt
    rw [scanFrom_of_takes taken, scanFrom_of_takes taken, Nat.add_assoc,
      scanFrom_shift rest bytes (offset + span.byteSize)]
    cases scanFrom (offset + span.byteSize) rest with
    | error e => rfl
    | ok blocks => cases block <;> simp [Except.mapError, Except.map, Block.shift_shift]
  · rw [scanFrom_of_fails failed, scanFrom_of_fails failed, ← SectionError.shift_shift]
    rfl
termination_by text.length

/-- The scanner comes, from the beginning of a source, to a rest of it. -/
def Reaches (source rest : Text) : Prop :=
  Relation.ReflTransGen (fun text next => ∃ span block, Takes text span block next) source rest

/-- Every `<` that the scanner meets starts a comment or an opening tag. -/
def Tight (source : Text) : Prop :=
  ∀ rest, Reaches source ('<' :: rest) →
    (∃ body, rest = '!' :: '-' :: '-' :: body) ∨ (OpenTag.read? rest).isSome = true

theorem Tight.nil : Tight [] := by
  intro rest reaches
  rcases Relation.ReflTransGen.cases_head reaches with same | ⟨next, ⟨span, block, taken⟩, -⟩
  · cases same
  · cases taken

theorem Tight.of_takes (taken : Takes text span block rest) (here : ∀ body, text = '<' :: body →
      (∃ inner, body = '!' :: '-' :: '-' :: inner) ∨ (OpenTag.read? body).isSome = true)
    (tight : Tight rest) : Tight text := by
  intro body reaches
  rcases Relation.ReflTransGen.cases_head reaches with same | ⟨next, ⟨span', block', taken'⟩, later⟩
  · exact here body same
  · rw [taken'.rest_unique taken] at later
    exact tight body later

theorem Tight.next (tight : Tight text) (taken : Takes text span block rest) : Tight rest :=
  fun body reaches => tight body (.head ⟨span, block, taken⟩ reaches)

theorem Tight.here {text : Text} (tight : Tight text) (body : Text) (same : text = '<' :: body) :
    (∃ inner, body = '!' :: '-' :: '-' :: inner) ∨ (OpenTag.read? body).isSome = true :=
  tight body (same ▸ .refl)

theorem scanFrom_append {text : Text} {blocks : List Block} {offset : Nat}
    (scanned : scanFrom offset text = .ok blocks) (tight : Tight text) (more : Text) :
    scanFrom offset (text ++ more) =
      (scanFrom (offset + text.byteSize) more).map (blocks ++ ·) := by
  rcases scanFrom_cases text with rfl | ⟨span, block, rest, taken⟩ | ⟨e, failed⟩
  · rw [scanFrom] at scanned
    cases scanned
    rw [nil_append, Text.byteSize, Nat.add_zero]
    cases scanFrom offset more <;> rfl
  · have shorter := taken.length_lt
    have taken' := taken.append tight.here more
    rw [scanFrom_of_takes taken] at scanned
    cases scanned' : scanFrom (offset + span.byteSize) rest with
    | error e => simp [scanned', Except.map] at scanned
    | ok later =>
      rw [scanned'] at scanned
      cases scanned
      rw [scanFrom_of_takes taken', scanFrom_append scanned' (tight.next taken) more,
        taken.eq_append, Text.byteSize_append, ← Nat.add_assoc]
      cases scanFrom (offset + span.byteSize + rest.byteSize) more <;>
        simp [Except.map, append_assoc]
  · simp [scanFrom_of_fails failed] at scanned
termination_by text.length

namespace Sections

variable {blocks blocks' : List Block}

theorem contents_append (kind : Section) :
    contents kind (blocks ++ blocks') = contents kind blocks ++ contents kind blocks' := by
  rw [contents, filter_append, map_append]
  rfl

theorem contents_shift (kind : Section) (bytes : Nat) :
    contents kind (blocks.map (Block.shift bytes)) = contents kind blocks := by
  rw [contents, filter_map, map_map]
  rfl

theorem countError?_of_perm (same : ∀ kind, (contents kind blocks).Perm (contents kind blocks'))
    (kinds : List Section) : countError? kinds blocks = countError? kinds blocks' := by
  simp only [countError?, (same _).length_eq]

theorem length_contents_le {kinds : List Section} {kind : Section}
    (counted : countError? kinds blocks = none) (member : kind ∈ kinds) :
    (contents kind blocks).length ≤ 1 := by
  have admitted := List.findSome?_eq_none_iff.mp counted kind member
  by_cases admits : kind.admits (contents kind blocks).length = true
  · unfold Section.admits at admits
    split at admits
    · exact Nat.le_of_eq (of_decide_eq_true admits)
    · exact of_decide_eq_true admits
  · simp only [if_neg admits] at admitted
    split at admitted <;> simp at admitted

theorem headD_of_perm {texts texts' : List Text} (same : texts.Perm texts')
    (few : texts.length ≤ 1) (absent : Text) : texts.headD absent = texts'.headD absent := by
  match texts, few with
  | [], _ => rw [nil_perm.mp same]
  | [text], _ => rw [singleton_perm.mp same]

theorem ofBlocks_of_perm (same : ∀ kind, (contents kind blocks).Perm (contents kind blocks')) :
    ofBlocks blocks = ofBlocks blocks' := by
  rw [ofBlocks, ofBlocks, ← countError?_of_perm same]
  cases counted : countError? Section.all blocks with
  | some e => rfl
  | none =>
    have single (kind : Section) (absent : Text) :
        (contents kind blocks).headD absent = (contents kind blocks').headD absent := by
      refine headD_of_perm (same kind) (length_contents_le counted ?_) absent
      cases kind <;> decide
    simp only [single]

end Sections

/-- The contents of a kind in a source; none if it cannot be scanned. -/
def contentsIn (kind : Section) (source : Text) : List Text :=
  match scan source with
  | .ok blocks => Sections.contents kind blocks
  | .error _ => []

theorem scan_append_of_ok {a : Text} {blocks : List Block} (scanned : scan a = .ok blocks)
    (tight : Tight a) (b : Text) :
    scan (a ++ b) = ((scan b).mapError (SectionError.shift a.byteSize)).map
      fun more => blocks ++ more.map (Block.shift a.byteSize) := by
  have shifted := scanFrom_shift b a.byteSize 0
  rw [Nat.add_zero] at shifted
  rw [scan] at scanned ⊢
  rw [scanFrom_append scanned tight, Nat.zero_add, shifted, scan]
  cases scanFrom 0 b <;> rfl

theorem scan_flatten {parts : List Text}
    (closed : ∀ part ∈ parts, Tight part ∧ ∃ blocks, scan part = .ok blocks) :
    ∃ blocks, scan parts.flatten = .ok blocks ∧
      ∀ kind, Sections.contents kind blocks = parts.flatMap (contentsIn kind) := by
  induction parts with
  | nil => exact ⟨[], by rw [flatten_nil, scan, scanFrom], fun kind => rfl⟩
  | cons part parts ih =>
    obtain ⟨⟨tight, blocks, scanned⟩, closed⟩ := forall_mem_cons.mp closed
    obtain ⟨more, scanned', same⟩ := ih closed
    refine ⟨_, (scan_append_of_ok scanned tight _).trans (by rw [scanned']; rfl), fun kind => ?_⟩
    rw [Sections.contents_append, Sections.contents_shift, same, flatMap_cons, contentsIn,
      scanned]

theorem extract_flatten_of_perm {parts parts' : List Text} (order : parts.Perm parts')
    (closed : ∀ part ∈ parts, Tight part ∧ ∃ blocks, scan part = .ok blocks) :
    Sections.extract parts.flatten = Sections.extract parts'.flatten ∧
      extractLocalization parts.flatten = extractLocalization parts'.flatten := by
  obtain ⟨blocks, scanned, all⟩ := scan_flatten closed
  obtain ⟨blocks', scanned', all'⟩ := scan_flatten fun part member =>
    closed part (order.mem_iff.mpr member)
  have same : ∀ kind,
      (Sections.contents kind blocks).Perm (Sections.contents kind blocks') := by
    intro kind
    rw [all, all']
    exact order.flatMap_right _
  constructor
  · rw [Sections.extract, Sections.extract, scanned, scanned']
    exact Sections.ofBlocks_of_perm same
  · rw [extractLocalization, extractLocalization, scanned, scanned']
    simp only
    rw [← Sections.countError?_of_perm same]
    cases counted : Sections.countError? [.localization] blocks with
    | some e => rfl
    | none =>
      have few := Sections.length_contents_le counted mem_cons_self
      simp only [Sections.headD_of_perm (same .localization) few]

/-- What follows a source that ends at its top level never changes its blocks, and what stands
before a source only moves its blocks and its error. So sources can stand in any order. -/
theorem scan_append :
    (∀ (a b : Text) (blocks : List Block), scan a = .ok blocks → Tight a →
      (∀ more, scan b = .ok more →
        scan (a ++ b) = .ok (blocks ++ more.map (Block.shift a.byteSize))) ∧
      ∀ e, scan b = .error e → scan (a ++ b) = .error (e.shift a.byteSize)) ∧
    ∀ parts parts' : List Text, parts.Perm parts' →
      (∀ part ∈ parts, Tight part ∧ ∃ blocks, scan part = .ok blocks) →
      Sections.extract parts.flatten = Sections.extract parts'.flatten ∧
        extractLocalization parts.flatten = extractLocalization parts'.flatten := by
  refine ⟨fun a b blocks scanned tight => ⟨?ok, ?failed⟩,
    fun parts parts' => extract_flatten_of_perm⟩
  case ok =>
    intro more next
    rw [scan_append_of_ok scanned tight, next]
    rfl
  case failed =>
    intro e next
    rw [scan_append_of_ok scanned tight, next]
    rfl

/-- A quote and an interpolation that a template leaves open, before a text that would close
both. -/
theorem scan_append_of_unbalanced :
    scan ('<' :: "template><i a='\x7b\x7b</template>".toList ++
        "'>\x7d\x7d<script>x</script>".toList) =
      .ok [⟨"template".toList, 0, "<template>".toList, "<i a='\x7b\x7b".toList,
          "</template>".toList⟩,
        ⟨"script".toList, 33, "<script>".toList, "x".toList, "</script>".toList⟩] := by
  have opened : OpenTag.read? "template><i a='\x7b\x7b</template>".toList =
      some (⟨"template".toList, "<template>".toList, false⟩,
        "<i a='\x7b\x7b</template>".toList) := by
    decide +kernel
  have closed : Block.contentOf ⟨"template".toList, "<template>".toList, false⟩ 0
      (Text.byteSize "<template>".toList) "<i a='\x7b\x7b</template>".toList =
        .ok ("<i a='\x7b\x7b".toList, "</template>".toList, []) := by
    decide +kernel
  have tight : Tight ('<' :: "template><i a='\x7b\x7b</template>".toList) := by
    refine .of_takes (.element opened rfl closed) ?_ .nil
    intro body same
    rw [← (List.cons.inj same).2, opened]
    exact .inr rfl
  have scanned : scan ('<' :: "template><i a='\x7b\x7b</template>".toList) =
      .ok [⟨"template".toList, 0, "<template>".toList, "<i a='\x7b\x7b".toList,
        "</template>".toList⟩] := by
    decide +kernel
  have next : scan "'>\x7d\x7d<script>x</script>".toList =
      .ok [⟨"script".toList, 4, "<script>".toList, "x".toList, "</script>".toList⟩] := by
    decide +kernel
  have size : Text.byteSize ('<' :: "template><i a='\x7b\x7b</template>".toList) = 29 := by
    decide +kernel
  have whole := (scan_append.1 _ _ _ scanned tight).1 _ next
  rw [size] at whole
  exact whole

end ComponentPack.Component
