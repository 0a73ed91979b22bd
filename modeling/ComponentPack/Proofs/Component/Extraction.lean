import ComponentPack.Proofs.Component.Nesting

/-!
The sections of a printed document. The scan of a document finds its blocks with their printed
contents; so extraction succeeds exactly if the blocks are counted as a component demands, and then
gives the trimmed contents.
-/

set_option autoImplicit false

namespace ComponentPack.Component

open Document List

/-- What is read as a close tag is the print of one, if a tag can have the name. -/
theorem CloseTag.exists_closing {name text span rest : Text}
    (named : ∀ c ∈ name, OpenTag.isNameChar c = true) (begins : name.head?.any Char.isAlpha = true)
    (read : CloseTag.read? name text = some (span, rest)) :
    ∃ closing : Closing, closing.key = name ∧ closing.print = span ∧ text = span ++ rest := by
  obtain ⟨spelled, gap, rfl, blank, rfl, split⟩ := read?_eq_some_iff.mp read
  have spelledNamed := isNameChar_of_lower_eq rfl named
  cases spelled with
  | nil => simp [Text.lower] at begins
  | cons first others =>
    have letter : first.isAlpha = true := by
      rw [← Char.isAlpha_toLower_eq_isAlpha]
      exact begins
    have chars : ∀ c ∈ others, OpenTag.isNameChar c = true :=
      fun c member => spelledNamed c (mem_cons_of_mem first member)
    exact ⟨⟨⟨first, others, letter, chars⟩, ⟨gap, blank⟩⟩, rfl, rfl, split⟩

namespace Block

/-- Raw content ends at the close tag that is printed after it. -/
theorem rawContent?_print {kind : Section} {content : Text} (free : ClosesNone kind content)
    (closing : Closing) (key : closing.key = kind.tag) (rest : Text) :
    rawContent? kind.tag (content ++ (closing.print ++ rest)) =
      some (content, closing.print, rest) := by
  have shape : closing.print ++ rest =
      '<' :: ('/' :: closing.name.text ++ closing.gap.text ++ ['>'] ++ rest) := rfl
  induction content with
  | nil =>
    have read := CloseTag.read?_print closing key rest
    rw [nil_append]
    rw [shape] at read ⊢
    rw [rawContent?, read]
  | cons c content ih =>
    have later : ClosesNone kind content := fun other same occurs =>
      free other same (infix_cons occurs)
    have missing : CloseTag.read? kind.tag (c :: (content ++ (closing.print ++ rest))) = none := by
      rw [Option.eq_none_iff_forall_ne_some]
      rintro ⟨span, after⟩ read
      obtain ⟨other, same, rfl, split⟩ := CloseTag.exists_closing (isNameChar_of_mem_tag kind)
        (by cases kind <;> decide) read
      -- The other close tag cannot reach into the printed one, whose `<` it does not have.
      have overlap : c :: content ++ (closing.print ++ rest) = other.print ++ after := split
      rcases append_eq_append_iff.mp overlap with
        ⟨beyond, reaches, follows⟩ | ⟨behind, inside, -⟩
      · cases beyond with
        | nil => exact free other same (by rw [reaches, append_nil])
        | cons d beyond =>
          have angle : d = '<' := by
            rw [shape, cons_append] at follows
            exact (List.cons.inj follows).1.symm
          have tails : '/' :: other.name.text ++ other.gap.text ++ ['>'] = content ++ d :: beyond :=
            (List.cons.inj reaches).2
          refine other.not_mem_tail (c := '<') (by decide) (by decide) (by decide) (by decide) ?_
          rw [tails, angle]
          exact mem_append_right content mem_cons_self
      · exact free other same (by rw [inside]; exact infix_append_left)
    rw [cons_append, rawContent?, missing, ih later]
    rfl

end Block

theorem scanFrom_text {written : Text} (plain : '<' ∉ written) (offset : Nat) (rest : Text) :
    scanFrom offset (written ++ rest) = scanFrom (offset + Text.byteSize written) rest := by
  induction written generalizing offset with
  | nil => simp [Text.byteSize]
  | cons c written ih =>
    rw [mem_cons, not_or] at plain
    rw [cons_append, scanFrom]
    · rw [ih plain.2, Text.byteSize, Nat.add_assoc]
    · intro body angle _
      exact plain.1 angle.symm
    · intro angle
      exact plain.1 angle.symm

theorem scanFrom_comment {body : Text} (closed : ¬ "-->" <:+: body) (offset : Nat)
    (rest : Text) :
    scanFrom offset ("<!--" ++ body ++ "-->" ++ rest) =
      scanFrom (offset + (Text.byteSize body + 7)) rest := by
  have shape : "<!--" ++ body ++ "-->" ++ rest =
      '<' :: '!' :: '-' :: '-' :: (body ++ ("-->" ++ rest)) := by simp
  have cut := Block.commentBody?_append closed rest
  rw [shape, scanFrom]
  split
  · next missing => exact absurd (cut.symm.trans missing) (by simp)
  · next inner after found =>
    rw [cut, Option.some.injEq, Prod.mk.injEq] at found
    obtain ⟨rfl, rfl⟩ := found
    rfl

theorem scanFrom_block (tag : Opening) {content closing rest : Text} (offset : Nat)
    (found : ∀ inside, Block.contentOf ⟨tag.key, tag.print, false⟩ offset inside
      (content ++ (closing ++ rest)) = .ok (content, closing, rest)) :
    scanFrom offset (tag.print ++ content ++ closing ++ rest) =
      (scanFrom (offset + Text.byteSize tag.print + Text.byteSize content + Text.byteSize closing)
        rest).map fun blocks => ⟨tag.key, offset, tag.print, content, closing⟩ :: blocks := by
  have read := OpenTag.read?_print tag (content ++ (closing ++ rest))
  have shape : tag.print ++ content ++ closing ++ rest =
      '<' :: (tag.name.text ++ tag.span ++ ['>'] ++ (content ++ (closing ++ rest))) := by
    simp [Opening.print]
  have no_comment : ∀ body,
      tag.name.text ++ tag.span ++ ['>'] ++ (content ++ (closing ++ rest)) ≠
        '!' :: '-' :: '-' :: body := by
    intro body start
    have bang : tag.name.first = '!' := (List.cons.inj start).1
    exact absurd tag.name.letter (by rw [bang]; decide)
  rw [shape, scanFrom]
  · split
    · next missing => exact absurd (read.symm.trans missing) (by simp)
    · next other after same =>
      rw [read, Option.some.injEq, Prod.mk.injEq] at same
      obtain ⟨rfl, rfl⟩ := same
      simp only [Bool.false_eq_true, if_false]
      split
      · next e failed => exact absurd ((found _).symm.trans failed) (by simp)
      · next inner close beyond done =>
        rw [found, Except.ok.injEq, Prod.mk.injEq, Prod.mk.injEq] at done
        obtain ⟨rfl, rfl, rfl⟩ := done
        split
        · next e failed => rw [failed]; rfl
        · next blocks scanned => rw [scanned]; rfl
  · exact no_comment

theorem contentOf_template {tag : Opening} (opened : tag.key = Section.template.tag)
    (content : Markup) {closing : Closing} (closed : closing.key = Section.template.tag)
    (start inside : Nat) (rest : Text) :
    Block.contentOf ⟨tag.key, tag.print, false⟩ start inside
      (content.print ++ (closing.print ++ rest)) = .ok (content.print, closing.print, rest) := by
  have nested : ¬ (Section.ofTag? Section.template.tag).any Section.isRaw = true := by decide
  rw [Block.contentOf, opened, if_neg nested]
  exact Block.nestedContent_print content closing closed start inside rest

theorem contentOf_raw {kind : Section} (isRaw : kind.isRaw = true) {tag : Opening}
    (opened : tag.key = kind.tag) {content : Text} (free : ClosesNone kind content)
    {closing : Closing} (closed : closing.key = kind.tag) (start inside : Nat) (rest : Text) :
    Block.contentOf ⟨tag.key, tag.print, false⟩ start inside
      (content ++ (closing.print ++ rest)) = .ok (content, closing.print, rest) := by
  have raw : (Section.ofTag? kind.tag).any Section.isRaw = true := by
    cases kind <;> first | exact absurd isRaw (by decide) | decide
  rw [Block.contentOf, opened, if_pos raw, Block.rawContent?_print free closing closed]

/-- The scan of a document finds its blocks, in order and with their printed contents. -/
theorem scanFrom_print (items : List Item) (offset : Nat) :
    ∃ blocks, scanFrom offset (print items) = .ok blocks ∧
      blocks.map (fun block => (block.tag, block.content)) =
        (items.filterMap Item.block?).map fun (kind, content) => (kind.tag, content) := by
  induction items generalizing offset with
  | nil =>
    refine ⟨[], ?_, rfl⟩
    rw [print, flatMap_nil, scanFrom]
  | cons item items ih =>
    rw [print, flatMap_cons, ← print]
    cases item with
    | text written plain =>
      obtain ⟨blocks, scanned, same⟩ := ih (offset + Text.byteSize written)
      exact ⟨blocks, (scanFrom_text plain offset _).trans scanned, same⟩
    | comment body closed =>
      obtain ⟨blocks, scanned, same⟩ := ih (offset + (Text.byteSize body + 7))
      exact ⟨blocks, (scanFrom_comment closed offset _).trans scanned, same⟩
    | template tag content closing opened closed =>
      obtain ⟨blocks, scanned, same⟩ := ih (offset + Text.byteSize tag.print +
        Text.byteSize content.print + Text.byteSize closing.print)
      refine ⟨⟨tag.key, offset, tag.print, content.print, closing.print⟩ :: blocks, ?_, ?_⟩
      · have block := scanFrom_block tag offset fun inside =>
          contentOf_template opened content closed offset inside (print items)
        exact block.trans (by rw [scanned]; rfl)
      · simp only [map_cons, same, opened, Item.block?, filterMap_cons]
    | raw kind isRaw tag content closing opened closed free =>
      obtain ⟨blocks, scanned, same⟩ := ih (offset + Text.byteSize tag.print +
        Text.byteSize content + Text.byteSize closing.print)
      refine ⟨⟨tag.key, offset, tag.print, content, closing.print⟩ :: blocks, ?_, ?_⟩
      · have block := scanFrom_block tag offset fun inside =>
          contentOf_raw isRaw opened free closed offset inside (print items)
        exact block.trans (by rw [scanned]; rfl)
      · simp only [map_cons, same, opened, Item.block?, filterMap_cons]

theorem Section.tag_injective : Function.Injective Section.tag := by
  intro a b same
  cases a <;> cases b <;> first | rfl | exact absurd same (by decide)

/-- The section contents of found blocks are the trimmed contents of the document. -/
theorem contents_of_found {items : List Item} {blocks : List Block}
    (found : blocks.map (fun block => (block.tag, block.content)) =
      (items.filterMap Item.block?).map fun (kind, content) => (kind.tag, content))
    (kind : Section) :
    Sections.contents kind blocks = (contents kind items).map Text.trim := by
  have sorted : Sections.contents kind blocks =
      ((blocks.map fun block => (block.tag, block.content)).filter fun pair =>
        pair.1 = kind.tag).map fun pair => Text.trim pair.2 := by
    simp only [Sections.contents, filter_map, map_map, Function.comp_def]
  have same (pair : Section × Text) : decide (pair.1.tag = kind.tag) = decide (pair.1 = kind) := by
    simp only [Section.tag_injective.eq_iff]
  rw [sorted, found]
  simp only [contents, filter_map, map_map, Function.comp_def, same]

/-- What a document gives: a complaint about the number of its blocks, or its trimmed contents. -/
theorem extract_print (items : List Item) :
    Sections.extract (print items) =
      match miscount? items with
      | some e => .error e
      | none => .ok {
          template := ((contents .template items).map Text.trim).headD []
          script := ((contents .script items).map Text.trim).headD []
          style := ((contents .style items).map Text.trim).headD []
          localization :=
            ((contents .localization items).map Text.trim).headD Sections.noLocalization } := by
  obtain ⟨blocks, scanned, found⟩ := scanFrom_print items 0
  have count (kind : Section) :
      (Sections.contents kind blocks).length = (contents kind items).length := by
    rw [contents_of_found found, length_map]
  have complaint : Sections.countError? Section.all blocks = miscount? items := by
    simp only [Sections.countError?, Section.all, miscount?, List.findSome?, count, Section.admits,
      Section.isRequired, if_true, Bool.false_eq_true, if_false, beq_iff_eq, decide_eq_true_eq]
    by_cases template : (contents .template items).length = 1
    · by_cases script : (contents .script items).length = 1
      · by_cases style : (contents .style items).length ≤ 1
        · by_cases localization : (contents .localization items).length ≤ 1
          · simp [template, script, style, localization, not_lt.mpr style, not_lt.mpr localization]
          · simp [template, script, style, localization, not_lt.mpr style, not_le.mp localization]
        · simp [template, script, style, not_le.mp style]
      · simp [template, script]
    · simp [template]
  rw [Sections.extract, scan, scanned]
  cases outcome : miscount? items with
  | none => simp only [Sections.ofBlocks, complaint, outcome, contents_of_found found]
  | some error => simp only [Sections.ofBlocks, complaint, outcome]

theorem miscount?_eq_none_iff {items : List Item} :
    miscount? items = none ↔
      (contents .template items).length = 1 ∧ (contents .script items).length = 1 ∧
        (contents .style items).length ≤ 1 ∧ (contents .localization items).length ≤ 1 := by
  simp only [miscount?]
  split_ifs <;> simp <;> omega

/-- A printed document is accepted exactly if it has one template, one script, at most one style
sheet and at most one localization, and then gives their trimmed contents; otherwise the first kind
with a wrong number of blocks is named with that number. -/
theorem extract_print_iff (items : List Item) :
    (∀ sections, Sections.extract (print items) = .ok sections ↔
      ∃ template script, contents .template items = [template] ∧
        contents .script items = [script] ∧
        (contents .style items).length ≤ 1 ∧ (contents .localization items).length ≤ 1 ∧
        sections = {
          template := Text.trim template
          script := Text.trim script
          style := ((contents .style items).map Text.trim).headD []
          localization :=
            ((contents .localization items).map Text.trim).headD "\x7b\x7d".toList }) ∧
    (∀ e, Sections.extract (print items) = .error e ↔ miscount? items = some e) := by
  constructor
  · intro sections
    rw [extract_print]
    constructor
    · intro accepted
      cases complaint : miscount? items with
      | some e =>
        rw [complaint] at accepted
        exact absurd accepted (by simp)
      | none =>
        rw [complaint] at accepted
        obtain ⟨one, other, style, localization⟩ := miscount?_eq_none_iff.mp complaint
        obtain ⟨template, isTemplate⟩ := List.length_eq_one_iff.mp one
        obtain ⟨script, isScript⟩ := List.length_eq_one_iff.mp other
        refine ⟨template, script, isTemplate, isScript, style, localization, ?_⟩
        rw [isTemplate, isScript] at accepted
        exact (Except.ok.inj accepted).symm
    · rintro ⟨template, script, isTemplate, isScript, style, localization, rfl⟩
      have complaint : miscount? items = none := by
        refine miscount?_eq_none_iff.mpr ⟨?_, ?_, style, localization⟩
        · rw [isTemplate, List.length_singleton]
        · rw [isScript, List.length_singleton]
      rw [complaint, isTemplate, isScript]
      rfl
  · intro e
    rw [extract_print]
    cases miscount? items <;> simp

end ComponentPack.Component
