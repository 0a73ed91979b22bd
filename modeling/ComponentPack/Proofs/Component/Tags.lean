import Mathlib
import ComponentPack.Proofs.Component.Document
import ComponentPack.Proofs.Text.Occurrence

/-!
Printed tags are read back. An opening tag is passed through part by part, so that a `>` inside of
a quoted value does not end it; a close tag is recognised exactly where one is written.
-/

set_option autoImplicit false

namespace ComponentPack.Component

open Document List

variable {c : Char} {text name rest : Text} {tag : Opening}

theorem toLower_eq_iff {d : Char} (other : d.isAlpha = false) : c.toLower = d ↔ c = d := by
  constructor
  · intro lower
    have same : c.isAlpha = false := by
      rwa [← lower, Char.isAlpha_toLower_eq_isAlpha] at other
    have not_upper : ¬ c.isUpper = true := by
      simp only [Char.isAlpha, Bool.or_eq_false_iff] at same
      simp [same.1]
    rw [← lower, Char.toLower_eq_of_not_isUpper not_upper]
  · rintro rfl
    apply Char.toLower_eq_of_not_isUpper
    simp only [Char.isAlpha, Bool.or_eq_false_iff] at other
    simp [other.1]

theorem mem_lower_iff {d : Char} (other : d.isAlpha = false) : d ∈ Text.lower text ↔ d ∈ text := by
  simp only [Text.lower, mem_map, toLower_eq_iff other, exists_eq_right]

theorem lower_append (a b : Text) : Text.lower (a ++ b) = Text.lower a ++ Text.lower b :=
  map_append

theorem isNameChar_toLower (c : Char) : OpenTag.isNameChar c.toLower = OpenTag.isNameChar c := by
  cases letter : c.isAlpha with
  | true => simp [OpenTag.isNameChar, Char.isAlphanum, letter]
  | false => rw [(toLower_eq_iff letter).mpr rfl]

/-- What a name spells in any letter case has the characters of a name. -/
theorem isNameChar_of_lower_eq {spelled : Text} (spells : Text.lower spelled = name)
    (named : ∀ c ∈ name, OpenTag.isNameChar c = true) :
    ∀ c ∈ spelled, OpenTag.isNameChar c = true := by
  intro c member
  rw [← isNameChar_toLower]
  exact named _ (spells ▸ mem_map_of_mem member)

theorem isNameChar_of_isAlpha (letter : c.isAlpha = true) : OpenTag.isNameChar c = true := by
  simp [OpenTag.isNameChar, Char.isAlphanum, letter]

theorem isNameChar_of_mem_tag (kind : Section) : ∀ c ∈ kind.tag, OpenTag.isNameChar c = true := by
  have all : kind.tag.all OpenTag.isNameChar = true := by cases kind <;> decide
  exact all_eq_true.mp all

theorem Document.TagName.isNameChar_of_mem (name : TagName) :
    ∀ c ∈ name.text, OpenTag.isNameChar c = true := by
  intro c member
  rcases mem_cons.mp member with rfl | member
  · exact isNameChar_of_isAlpha name.letter
  · exact name.named c member

theorem isNameChar_eq_false_of_blank (blank : Text.isAsciiBlank c = true) :
    OpenTag.isNameChar c = false := by
  simpa using Text.of_isAsciiBlank (!OpenTag.isNameChar ·) (by decide) blank

namespace CloseTag

theorem name?_append (span rest : Text) :
    name? (Text.lower span) (span ++ rest) = some (span, rest) := by
  induction span with
  | nil => rfl
  | cons c span ih =>
    rw [cons_append, Text.lower, map_cons, name?, if_pos rfl]
    exact congrArg (Option.map _) ih

theorem blank_stops (rest : Text) :
    ∀ c ∈ ('>' :: rest : Text).head?, Text.isAsciiBlank c = false := by
  intro c first
  obtain rfl : '>' = c := by simpa using first
  decide

/-- A close tag is read exactly where one is written: the name in any letter case, then blanks. -/
theorem read?_eq_some_iff {span : Text} :
    read? name text = some (span, rest) ↔
      ∃ spelled gap : Text, Text.lower spelled = name ∧
        (∀ c ∈ gap, Text.isAsciiBlank c = true) ∧
        span = '<' :: '/' :: spelled ++ gap ++ ['>'] ∧ text = span ++ rest := by
  refine ⟨of_read?, ?_⟩
  rintro ⟨spelled, gap, rfl, blank, rfl, rfl⟩
  have shape : '<' :: '/' :: spelled ++ gap ++ ['>'] ++ rest =
      '<' :: '/' :: (spelled ++ (gap ++ '>' :: rest)) := by simp
  rw [shape]
  simp only [read?, name?_append, Text.dropWhile_append_eq blank (blank_stops rest),
    Text.takeWhile_append_eq blank (blank_stops rest)]

theorem read?_print (closing : Closing) (key : closing.key = name) (rest : Text) :
    read? name (closing.print ++ rest) = some (closing.print, rest) :=
  read?_eq_some_iff.mpr ⟨closing.name.text, closing.gap.text, key, closing.gap.blank, rfl, rfl⟩

theorem read?_eq_none_of_ne (other : c ≠ '/') : read? name ('<' :: c :: rest) = none := by
  rw [Option.eq_none_iff_forall_ne_some]
  rintro ⟨span, after⟩ read
  obtain ⟨spelled, gap, -, -, rfl, split⟩ := read?_eq_some_iff.mp read
  simp only [cons_append, List.cons.injEq] at split
  exact other split.2.1

end CloseTag

/-- After the `<` of a close tag stand a slash, a name, blanks and the end. -/
theorem Document.Closing.not_mem_tail (closing : Closing) (slash : c ≠ '/') (ends : c ≠ '>')
    (unnamed : OpenTag.isNameChar c = false) (visible : Text.isAsciiBlank c = false) :
    c ∉ '/' :: closing.name.text ++ closing.gap.text ++ ['>'] := by
  intro member
  simp only [cons_append, mem_cons, mem_append, not_mem_nil, or_false] at member
  rcases member with same | (inside | inside) | same
  · exact slash same
  · exact absurd (closing.name.isNameChar_of_mem c inside) (by simp [unnamed])
  · exact absurd (closing.gap.blank c inside) (by simp [visible])
  · exact ends same

theorem isNameChar_head_gap {gap : Text} (blank : ∀ c ∈ gap, Text.isAsciiBlank c = true)
    (rest : Text) : ∀ c ∈ (gap ++ '>' :: rest).head?, OpenTag.isNameChar c = false := by
  intro c first
  cases gap with
  | nil =>
    obtain rfl : '>' = c := by simpa using first
    decide
  | cons d gap =>
    obtain rfl : d = c := by simpa using first
    exact isNameChar_eq_false_of_blank (blank d mem_cons_self)

/-- The close tag of another name is not taken for one of the given name. -/
theorem CloseTag.read?_print_eq_none (closing : Closing) (key : closing.key ≠ name)
    (named : ∀ c ∈ name, OpenTag.isNameChar c = true) (rest : Text) :
    read? name (closing.print ++ rest) = none := by
  rw [Option.eq_none_iff_forall_ne_some]
  rintro ⟨span, after⟩ read
  obtain ⟨spelled, gap, spells, blank, rfl, split⟩ := read?_eq_some_iff.mp read
  apply key
  rw [← spells]
  have same : closing.name.text ++ (closing.gap.text ++ '>' :: rest) =
      spelled ++ (gap ++ '>' :: after) := by
    simpa [Closing.print] using split
  -- Both names are the longest run of name characters at the same place.
  have first := congrArg (List.takeWhile OpenTag.isNameChar) same
  rw [Text.takeWhile_append_eq closing.name.isNameChar_of_mem
      (isNameChar_head_gap closing.gap.blank rest),
    Text.takeWhile_append_eq (isNameChar_of_lower_eq spells named)
      (isNameChar_head_gap blank after)] at first
  rw [Closing.key, first]

namespace OpenTag

/-- A part of a tag that the search for its end passes over, outside quotes on both sides. -/
def PassedOver (part : Text) : Prop :=
  ∀ tail, attributes? none (part ++ tail) =
    (attributes? none tail).map fun (span, rest) => (part ++ span, rest)

theorem PassedOver.nil : PassedOver [] := by
  intro tail
  simp

theorem PassedOver.append {a b : Text} (first : PassedOver a) (second : PassedOver b) :
    PassedOver (a ++ b) := by
  intro tail
  rw [append_assoc, first, second, Option.map_map]
  simp only [Function.comp_def, append_assoc]

theorem PassedOver.flatMap {α : Type} {parts : List α} {print : α → Text}
    (each : ∀ part ∈ parts, PassedOver (print part)) : PassedOver (parts.flatMap print) := by
  induction parts with
  | nil => exact .nil
  | cons part parts ih =>
    rw [flatMap_cons]
    refine .append (each part mem_cons_self) (ih ?_)
    intro other member
    exact each other (mem_cons_of_mem part member)

theorem PassedOver.of_plain {part : Text} (plain : ∀ c ∈ part, c ≠ '"' ∧ c ≠ '\'' ∧ c ≠ '>') :
    PassedOver part := by
  induction part with
  | nil => exact .nil
  | cons c part ih =>
    intro tail
    obtain ⟨not_double, not_single, not_end⟩ := plain c List.mem_cons_self
    have rest := ih (fun d member => plain d (List.mem_cons_of_mem c member)) tail
    simp only [List.cons_append, attributes?, not_double, not_single, not_end, and_false, or_false,
      if_false, rest, Option.map_map, Function.comp_def]

theorem attributes?_quoted {quote : Char} (closed : quote ∉ text) (tail : Text) :
    attributes? (some quote) (text ++ quote :: tail) =
      (attributes? none tail).map fun (span, rest) => (text ++ quote :: span, rest) := by
  induction text with
  | nil => simp [attributes?]
  | cons c text ih =>
    rw [List.mem_cons, not_or] at closed
    have other : c ≠ quote := fun same => closed.1 same.symm
    simp only [List.cons_append, attributes?, reduceCtorEq, false_and, if_false, other, ih closed.2,
      Option.map_map, Function.comp_def]

theorem PassedOver.quoted {quote : Char} (isQuote : quote = '"' ∨ quote = '\'')
    (closed : quote ∉ text) : PassedOver (quote :: text ++ [quote]) := by
  intro tail
  have not_end : quote ≠ '>' := by
    rintro rfl
    rcases isQuote with same | same <;> exact absurd same (by decide)
  have shape : quote :: text ++ [quote] ++ tail = quote :: (text ++ quote :: tail) := by simp
  rw [shape, attributes?, if_neg (by simp [not_end])]
  simp only [isQuote, if_true, attributes?_quoted closed, Option.map_map]
  congr 1
  funext found
  simp

theorem PassedOver.gap (gap : Gap) : PassedOver gap.text := by
  refine .of_plain fun c member => ?_
  have blank := gap.blank c member
  refine ⟨?_, ?_, ?_⟩ <;> (rintro rfl; exact absurd blank (by decide))

theorem PassedOver.value (value : Value) : PassedOver value.print := by
  have sign : PassedOver ['='] := .of_plain (by simp)
  have parts := (((PassedOver.gap value.before).append sign).append (.gap value.after)).append
    (.quoted value.isQuote value.closed)
  simpa [Value.print] using parts

theorem isAttributeChar_plain (plain : isAttributeChar c = true) :
    c ≠ '"' ∧ c ≠ '\'' ∧ c ≠ '>' ∧ c ≠ '/' := by
  simp only [isAttributeChar, Bool.and_eq_true, bne_iff_ne, ne_eq] at plain
  tauto

theorem PassedOver.pair (pair : Attribute) : PassedOver pair.print := by
  have name : PassedOver pair.name := by
    refine .of_plain fun c member => ?_
    have plain := isAttributeChar_plain (pair.plain c member)
    exact ⟨plain.1, plain.2.1, plain.2.2.1⟩
  refine ((PassedOver.gap pair.gap).append name).append ?_
  cases pair.value with
  | none => exact .nil
  | some value => exact .value value

theorem PassedOver.span (tag : Opening) : PassedOver tag.span :=
  .append (.flatMap fun pair _ => .pair pair) (.gap tag.gap)

/-- What may follow the name of a tag. -/
def Follows (body : Text) : Prop :=
  ∀ c ∈ body.head?, Text.isAsciiBlank c = true ∨ c = '/'

theorem follows_span (tag : Opening) : Follows tag.span := by
  intro c first
  left
  cases pairs : tag.attributes with
  | nil =>
    rw [Opening.span, pairs, List.flatMap_nil, List.nil_append] at first
    exact tag.gap.blank c (List.mem_of_mem_head? first)
  | cons pair others =>
    cases gap : pair.gap.text with
    | nil => exact absurd gap pair.apart
    | cons d blanks =>
      have same : d = c := by
        simpa [Opening.span, pairs, Attribute.print, gap] using first
      exact same ▸ pair.gap.blank d (gap ▸ List.mem_cons_self)

theorem read?_append (name : TagName) {body : Text} (passed : PassedOver body)
    (follows : Follows body) (rest : Text) :
    read? (name.text ++ (body ++ '>' :: rest)) =
      some (⟨Text.lower name.text, '<' :: name.text ++ body ++ ['>'], body.getLast? = some '/'⟩,
        rest) := by
  have next : ∀ c ∈ (body ++ '>' :: rest).head?,
      Text.isAsciiBlank c = true ∨ c = '>' ∨ c = '/' := by
    intro c first
    cases body with
    | nil =>
      obtain rfl : '>' = c := by simpa using first
      exact .inr (.inl rfl)
    | cons d body =>
      rcases follows c (by simpa using first) with blank | slash
      · exact .inl blank
      · exact .inr (.inr slash)
  have stops : ∀ c ∈ (body ++ '>' :: rest).head?, isNameChar c = false := by
    intro c first
    rcases next c first with blank | rfl | rfl
    · exact isNameChar_eq_false_of_blank blank
    · decide
    · decide
  have ended : attributes? none (body ++ '>' :: rest) = some (body, rest) := by
    rw [passed]
    simp [attributes?]
  have first : name.text.head? = some name.first := rfl
  rw [read?, Text.takeWhile_append_eq name.isNameChar_of_mem stops,
    Text.dropWhile_append_eq name.isNameChar_of_mem stops]
  cases head : (body ++ '>' :: rest).head? with
  | none => simp at head
  | some c =>
    simp only [first, name.letter, next c head, and_self, if_true, ended, Option.map_some]

theorem getLast?_append_ne {a b : Text} (first : a.getLast? ≠ some '/')
    (second : b.getLast? ≠ some '/') : (a ++ b).getLast? ≠ some '/' := by
  rw [List.getLast?_append]
  cases last : b.getLast? with
  | none => simpa using first
  | some c => simpa [last] using second

theorem getLast?_ne_of_not_mem (absent : '/' ∉ text) : text.getLast? ≠ some '/' :=
  fun last => absent (List.mem_of_getLast? last)

theorem slash_not_mem_gap (gap : Gap) : '/' ∉ gap.text :=
  fun member => absurd (gap.blank '/' member) (by decide)

theorem slash_not_mem_name (pair : Attribute) : '/' ∉ pair.name :=
  fun member => absurd (pair.plain '/' member) (by decide)

theorem getLast?_pair_ne (pair : Attribute) : pair.print.getLast? ≠ some '/' := by
  refine getLast?_append_ne (getLast?_append_ne (getLast?_ne_of_not_mem (slash_not_mem_gap _))
    (getLast?_ne_of_not_mem (slash_not_mem_name _))) ?_
  cases pair.value with
  | none => simp
  | some value =>
    change value.print.getLast? ≠ some '/'
    rw [Value.print, List.getLast?_concat]
    rcases value.isQuote with quote | quote <;> (rw [quote]; decide)

theorem getLast?_span_ne (tag : Opening) : tag.span.getLast? ≠ some '/' := by
  refine getLast?_append_ne ?_ (getLast?_ne_of_not_mem (slash_not_mem_gap _))
  induction tag.attributes with
  | nil => simp
  | cons pair others ih => exact getLast?_append_ne (getLast?_pair_ne pair) ih

/-- A printed opening tag is read as it was written. -/
theorem read?_print (tag : Opening) (rest : Text) :
    read? (tag.name.text ++ tag.span ++ ['>'] ++ rest) =
      some (⟨tag.key, tag.print, false⟩, rest) := by
  have read := read?_append tag.name (PassedOver.span tag) (follows_span tag) rest
  simpa [getLast?_span_ne tag, Opening.key, Opening.print] using read

theorem read?_printEmpty (tag : Opening) (rest : Text) :
    read? (tag.name.text ++ tag.span ++ ['/', '>'] ++ rest) =
      some (⟨tag.key, tag.printEmpty, true⟩, rest) := by
  have slash : PassedOver ['/'] := .of_plain (by simp)
  have follows : Follows (tag.span ++ ['/']) := by
    intro c first
    cases span : tag.span with
    | nil =>
      rw [span] at first
      exact .inr (by simpa using first.symm)
    | cons d others =>
      rw [span] at first
      exact follows_span tag c (by simpa [span] using first)
  have read := read?_append tag.name ((PassedOver.span tag).append slash) follows rest
  simpa [Opening.key, Opening.printEmpty] using read

end OpenTag

namespace Document

theorem closesNoTemplate_of_not_mem (absent : '/' ∉ text) : ClosesNoTemplate text := by
  intro occurs
  have slash : '/' ∈ Text.lower text := occurs.subset (by decide)
  exact absent ((mem_lower_iff (by decide)).mp slash)

/-- The characters that cannot stand inside of the beginning of a close tag. -/
def Separates (c : Char) : Prop := c.toLower ∉ "</template".toList

theorem separates_of_blank (blank : Text.isAsciiBlank c = true) : Separates c := by
  have apart := Text.of_isAsciiBlank (!"</template".toList.contains ·.toLower) (by decide) blank
  simpa [Separates] using apart

theorem closesNoTemplate_append_cons {before after : Text} (separates : Separates c) :
    ClosesNoTemplate (before ++ c :: after) ↔ ClosesNoTemplate before ∧ ClosesNoTemplate after := by
  unfold ClosesNoTemplate
  rw [lower_append]
  change ¬ _ <:+: Text.lower before ++ c.toLower :: Text.lower after ↔ _
  rw [Text.infix_append_cons_iff separates, not_or]

theorem closesNoTemplate_append_slash (free : ClosesNoTemplate text) :
    ClosesNoTemplate (text ++ ['/']) := by
  intro occurs
  rw [lower_append] at occurs
  rcases infix_concat_iff.mp occurs with ends | inside
  · have last := suffix_concat_iff.mp ends
    rcases last with empty | ⟨front, split, -⟩
    · exact absurd empty (by decide)
    · have same := congrArg List.getLast? split
      rw [List.getLast?_concat] at same
      exact absurd same (by decide)
  · exact free inside

theorem closesNoTemplate_blanks_append {gap : Text} (blank : ∀ c ∈ gap, Text.isAsciiBlank c = true)
    (free : ClosesNoTemplate text) : ClosesNoTemplate (gap ++ text) := by
  induction gap with
  | nil => exact free
  | cons c gap ih =>
    have separates := separates_of_blank (blank c mem_cons_self)
    have empty : ClosesNoTemplate [] := closesNoTemplate_of_not_mem not_mem_nil
    change ClosesNoTemplate ([] ++ c :: (gap ++ text))
    rw [closesNoTemplate_append_cons separates]
    exact ⟨empty, ih fun d member => blank d (mem_cons_of_mem c member)⟩

theorem closesNoTemplate_value {value : Value} (free : ClosesNoTemplate value.text)
    (plain : '/' ∉ name) : ClosesNoTemplate (name ++ value.print) := by
  have quote : Separates value.quote := by
    rcases value.isQuote with same | same <;> (rw [Separates, same]; decide)
  have shape : name ++ value.print = (name ++ value.before.text) ++
      '=' :: (value.after.text ++ value.quote :: (value.text ++ value.quote :: [])) := by
    simp [Value.print]
  have left : ClosesNoTemplate (name ++ value.before.text) := by
    apply closesNoTemplate_of_not_mem
    rw [mem_append, not_or]
    exact ⟨plain, OpenTag.slash_not_mem_gap _⟩
  have empty : ClosesNoTemplate [] := closesNoTemplate_of_not_mem not_mem_nil
  rw [shape, closesNoTemplate_append_cons (by rw [Separates]; decide)]
  refine ⟨left, ?_⟩
  rw [closesNoTemplate_append_cons quote]
  refine ⟨closesNoTemplate_of_not_mem (OpenTag.slash_not_mem_gap _), ?_⟩
  rw [closesNoTemplate_append_cons quote]
  exact ⟨free, empty⟩

theorem closesNoTemplate_pair {pair : Attribute}
    (free : ∀ value ∈ pair.value, ClosesNoTemplate value.text) {front : Text}
    (before : ClosesNoTemplate front) : ClosesNoTemplate (front ++ pair.print) := by
  obtain ⟨c, blanks, gap⟩ := exists_cons_of_ne_nil pair.apart
  have blank : ∀ d ∈ c :: blanks, Text.isAsciiBlank d = true := gap ▸ pair.gap.blank
  have tail : ClosesNoTemplate (pair.name ++ (pair.value.map Value.print).getD []) := by
    cases value : pair.value with
    | none => simpa using closesNoTemplate_of_not_mem (OpenTag.slash_not_mem_name pair)
    | some found =>
      exact closesNoTemplate_value (free found value) (OpenTag.slash_not_mem_name pair)
  have shape : front ++ pair.print =
      front ++ c :: (blanks ++ (pair.name ++ (pair.value.map Value.print).getD [])) := by
    simp [Attribute.print, gap]
  rw [shape, closesNoTemplate_append_cons (separates_of_blank (blank c mem_cons_self))]
  refine ⟨before, closesNoTemplate_blanks_append ?_ tail⟩
  intro d member
  exact blank d (mem_cons_of_mem c member)

theorem closesNoTemplate_pairs {pairs : List Attribute}
    (free : ∀ pair ∈ pairs, ∀ value ∈ pair.value, ClosesNoTemplate value.text) {front : Text}
    (before : ClosesNoTemplate front) :
    ClosesNoTemplate (front ++ pairs.flatMap Attribute.print) := by
  induction pairs generalizing front with
  | nil => simpa using before
  | cons pair pairs ih =>
    rw [flatMap_cons, ← append_assoc]
    apply ih
    · intro other member
      exact free other (mem_cons_of_mem pair member)
    · exact closesNoTemplate_pair (free pair mem_cons_self) before

namespace Opening

/-- A harmless tag has no beginning of a close tag up to its end. -/
theorem Harmless.beginning (harmless : tag.Harmless) :
    ClosesNoTemplate ('<' :: tag.name.text ++ tag.span) := by
  have name : ClosesNoTemplate ('<' :: tag.name.text) := by
    apply closesNoTemplate_of_not_mem
    rw [mem_cons, not_or]
    refine ⟨by decide, fun member => ?_⟩
    exact absurd (tag.name.isNameChar_of_mem '/' member) (by decide)
  have pairs := closesNoTemplate_pairs harmless name
  rw [span, ← append_assoc]
  cases gap : tag.gap.text with
  | nil => simpa using pairs
  | cons c blanks =>
    have blank : ∀ d ∈ c :: blanks, Text.isAsciiBlank d = true := gap ▸ tag.gap.blank
    rw [closesNoTemplate_append_cons (separates_of_blank (blank c mem_cons_self))]
    refine ⟨pairs, closesNoTemplate_of_not_mem fun member => ?_⟩
    exact absurd (blank '/' (mem_cons_of_mem c member)) (by decide)

theorem beginsIn_eq_false (free : ClosesNoTemplate text) :
    CloseTag.beginsIn Section.template.tag text = false := by
  rw [CloseTag.beginsIn, Bool.eq_false_iff, ne_eq, Text.contains_iff_infix]
  exact free

theorem Harmless.print (harmless : tag.Harmless) :
    CloseTag.beginsIn Section.template.tag tag.print = false := by
  apply beginsIn_eq_false
  rw [Opening.print, closesNoTemplate_append_cons (by rw [Separates]; decide)]
  exact ⟨harmless.beginning, closesNoTemplate_of_not_mem not_mem_nil⟩

theorem Harmless.printEmpty (harmless : tag.Harmless) :
    CloseTag.beginsIn Section.template.tag tag.printEmpty = false := by
  apply beginsIn_eq_false
  have shape : tag.printEmpty = ('<' :: tag.name.text ++ tag.span ++ ['/']) ++ '>' :: [] := by
    simp [Opening.printEmpty]
  rw [shape, closesNoTemplate_append_cons (by rw [Separates]; decide)]
  exact ⟨closesNoTemplate_append_slash harmless.beginning,
    closesNoTemplate_of_not_mem not_mem_nil⟩

end Opening

end Document

end ComponentPack.Component
