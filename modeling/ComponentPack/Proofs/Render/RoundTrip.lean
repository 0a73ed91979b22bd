import Mathlib
import ComponentPack.Proofs.Text.Pieces
import ComponentPack.Proofs.Render.Names

/-!
Compiled render code, printed and read back. The reader cuts at the first occurrence of two markers,
at braces and commas, and at lines that begin with a keyword. No part of printed code forges what
ends another part, so that reading gives the parts back (`parse_print`).
-/

set_option autoImplicit false

namespace ComponentPack.Render

open Code List Text

variable {c : Char} {name : Text} {spec : Import} {imports : List Import}

theorem isBlank_eq_false_of_isNameChar (name : isNameChar c = true) : isBlank c = false := by
  -- There are few blanks: each of them is looked up among the characters of names.
  have each : ([0x9, 0xA, 0xB, 0xC, 0xD, 0x20, 0x85, 0xA0, 0x1680, 0x2000, 0x2001, 0x2002, 0x2003,
      0x2004, 0x2005, 0x2006, 0x2007, 0x2008, 0x2009, 0x200A, 0x2028, 0x2029, 0x202F, 0x205F,
      0x3000].all fun n => !isNameChar (Char.ofNat n)) = true := by
    decide +kernel
  by_contra blank
  simp only [Bool.not_eq_false, isBlank, Bool.or_eq_true, Bool.and_eq_true, decide_eq_true_eq,
    beq_iff_eq] at blank
  have outside := all_eq_true.mp each c.toNat (by simp only [mem_cons]; omega)
  rw [Char.ofNat_toNat, name] at outside
  exact Bool.noConfusion outside

theorem isDeclarable_of_isName (isName : Lexeme.isName name = true) : IsDeclarable name := by
  obtain ⟨first, others, rfl, begins, chars⟩ := Lexeme.exists_cons_of_isName isName
  exact ⟨first, others, rfl, begins, fun c member => isNameChar_of_isWordChar (chars c member)⟩

theorem IsDeclarable.not_mem (declarable : IsDeclarable name)
    (foreign : Render.isNameChar c = false) : c ∉ name := by
  intro member
  rw [declarable.isNameChar c member] at foreign
  exact Bool.noConfusion foreign

theorem IsDeclarable.ne_nil (declarable : IsDeclarable name) : name ≠ [] := by
  obtain ⟨first, others, rfl, -, -⟩ := declarable
  exact cons_ne_nil first others

theorem IsDeclarable.trimmed (declarable : IsDeclarable name) :
    Text.Trimmed name where
  starts c first :=
    isBlank_eq_false_of_isNameChar (declarable.isNameChar c (mem_of_mem_head? first))
  ends c last :=
    isBlank_eq_false_of_isNameChar (declarable.isNameChar c (mem_of_getLast? last))

namespace Import

/-- An import with an alias, as it is written. -/
def print (spec : Import) : Text := spec.imported ++ (" as " ++ spec.localName)

/-- What stands between the braces. -/
def printItems (texts : List Text) : Text := ' ' :: (List.intercalate ", " texts ++ [' '])

/-- An import clause up to the place from which it imports. -/
def printClause (imports : List Import) : Text :=
  ['i', 'm', 'p', 'o', 'r', 't', ' '] ++
    '\x7b' :: (printItems (imports.map print) ++ '\x7d' :: [' '])

theorem printItems_cons_cons (text next : Text) (texts : List Text) :
    printItems (text :: next :: texts) = (' ' :: text) ++ ',' :: printItems (next :: texts) := by
  rw [printItems, intercalate_cons_cons]
  simp [printItems]

/-- Both names of an import can be read as names. -/
structure Named (spec : Import) : Prop where
  imported : IsDeclarable spec.imported
  localName : IsDeclarable spec.localName

theorem Named.parse?_print (named : spec.Named) : parse? spec.print = some spec := by
  have first : name? spec.print = some (spec.imported, ' ' :: ("as " ++ spec.localName)) :=
    name?_eq_some_iff.mpr ⟨rfl, named.imported, by simp; decide⟩
  have gap : afterBlanks? (' ' :: ("as " ++ spec.localName)) =
      some ("as" ++ (' ' :: spec.localName)) :=
    afterBlanks?_eq_some_iff.mpr ⟨[' '], rfl, by simp, by simp; decide, by simp; decide⟩
  have word : "as".toList.isPrefixOf? ("as" ++ (' ' :: spec.localName)) =
      some (' ' :: spec.localName) :=
    List.isPrefixOf?_eq_some_iff_append_eq.mpr rfl
  have blank : afterBlanks? (' ' :: spec.localName) = some spec.localName :=
    afterBlanks?_eq_some_iff.mpr ⟨[' '], rfl, by simp, by simp; decide,
      named.localName.trimmed.starts⟩
  have second : name? spec.localName = some (spec.localName, []) :=
    name?_eq_some_iff.mpr ⟨(append_nil _).symm, named.localName, by simp⟩
  simp only [parse?, first, gap, word, blank, second, Option.bind_some]

theorem Named.trimmed_print (named : spec.Named) : Text.Trimmed spec.print :=
  named.imported.trimmed.append named.localName.trimmed named.imported.ne_nil
    named.localName.ne_nil _

theorem Named.not_mem_print (named : spec.Named) (foreign : isNameChar c = false)
    (other : c ∉ " as ".toList) : c ∉ spec.print := by
  simp only [print, mem_append, not_or]
  exact ⟨named.imported.not_mem foreign, other, named.localName.not_mem foreign⟩

theorem items_append (a b : Text) : items (a ++ ',' :: b) = items a ++ items b := by
  rw [items, items, items, splitAll_append, map_append, filter_append]

theorem items_of_not_mem {list item : Text} (single : ',' ∉ list) (trim : trim list = item)
    (filled : item ≠ []) : items list = [item] := by
  rw [items, splitAll_of_not_mem single, map_singleton, trim]
  exact filter_cons_of_pos (by simpa using filled)

/-- The items of a list are those that were joined by commas. -/
theorem items_printItems {texts : List Text} (filled : ∀ text ∈ texts, text ≠ [])
    (trimmed : ∀ text ∈ texts, Text.Trimmed text) (single : ∀ text ∈ texts, ',' ∉ text) :
    items (printItems texts) = texts := by
  have space : ∀ c ∈ [' '], isBlank c = true := forall_mem_singleton.mpr rfl
  induction texts with
  | nil => decide
  | cons text texts ih =>
    obtain ⟨firstFilled, filled⟩ := forall_mem_cons.mp filled
    obtain ⟨firstTrimmed, trimmed⟩ := forall_mem_cons.mp trimmed
    obtain ⟨firstSingle, single⟩ := forall_mem_cons.mp single
    cases texts with
    | nil =>
      rw [printItems, intercalate_singleton]
      exact items_of_not_mem (by simp [firstSingle]) (firstTrimmed.trim_eq space space) firstFilled
    | cons next texts =>
      have trim : trim (' ' :: text) = text := by
        simpa using firstTrimmed.trim_eq space (forall_mem_nil _)
      rw [printItems_cons_cons, items_append, ih filled trimmed single,
        items_of_not_mem (by simp [firstSingle]) trim firstFilled]
      rfl

theorem mapM_parse?_print (named : ∀ spec ∈ imports, spec.Named) :
    (imports.map print).mapM parse? = some imports := by
  induction imports with
  | nil => rfl
  | cons spec imports ih =>
    obtain ⟨first, named⟩ := forall_mem_cons.mp named
    rw [map_cons, mapM_cons, first.parse?_print, ih named]
    rfl

theorem parseClause_printClause (named : ∀ spec ∈ imports, spec.Named) :
    parseClause (printClause imports) = .ok imports := by
  have opened : cut? ['\x7b'] (printClause imports) =
      some (['i', 'm', 'p', 'o', 'r', 't', ' '],
        printItems (imports.map print) ++ '\x7d' :: [' ']) :=
    cut?_append _ (by decide)
  have closed : cutLast? '\x7d' (printItems (imports.map print) ++ '\x7d' :: [' ']) =
      some (printItems (imports.map print), [' ']) :=
    cutLast?_append _ (by decide)
  have listed : items (printItems (imports.map print)) = imports.map print := by
    apply items_printItems <;> refine forall_mem_map.mpr fun spec member => ?_
    · exact append_ne_nil_of_left_ne_nil (named spec member).imported.ne_nil _
    · exact (named spec member).trimmed_print
    · exact (named spec member).not_mem_print (by decide) (by decide)
  simp only [parseClause, opened, closed, listed, mapM_parse?_print named, Option.bind_some]

theorem not_mem_printClause (named : ∀ spec ∈ imports, spec.Named) : '"' ∉ printClause imports := by
  have inside : '"' ∉ List.intercalate ", " (imports.map print) := by
    refine @Text.intercalate_of_append ('"' ∉ ·) (by simp) (fun a b ha hb => ?_) _ ?_ _ ?_
    · exact List.mem_append.not.mpr (not_or.mpr ⟨ha, hb⟩)
    · decide
    · refine List.forall_mem_map.mpr fun spec member => ?_
      exact (named spec member).not_mem_print (by decide) (by decide)
  simp only [printClause, printItems, List.mem_append, List.mem_cons, not_or]
  refine ⟨by decide, by decide, ⟨by decide, inside, by decide⟩, by decide⟩

/-- A phrase without commas that occurs in a list occurs in one of its items. -/
theorem not_infix_printItems {phrase : Text} (foreign : ',' ∉ phrase)
    (wide : ¬ phrase <:+: [' ', ' ']) {texts : List Text}
    (each : ∀ text ∈ texts, ¬ phrase <:+: ' ' :: (text ++ [' '])) :
    ¬ phrase <:+: printItems texts := by
  induction texts with
  | nil => exact wide
  | cons text texts ih =>
    obtain ⟨first, each⟩ := List.forall_mem_cons.mp each
    cases texts with
    | nil =>
      rw [printItems, List.intercalate_singleton]
      exact first
    | cons next texts =>
      rw [printItems_cons_cons, Text.infix_append_cons_iff foreign, not_or]
      refine ⟨fun occurs => first ?_, ih each⟩
      exact occurs.trans ((List.prefix_append (' ' :: text) [' ']).isInfix)

/-- Two words with one space between them do not occur where one name stands between spaces. -/
theorem not_infix_name (declarable : IsDeclarable name) :
    ¬ ['t', ' ', 'f'] <:+: ' ' :: (name ++ [' ']) := by
  intro occurs
  rcases List.infix_cons_iff.mp occurs with first | inside
  · exact absurd (List.cons_prefix_cons.mp first).1 (by decide)
  · rcases List.infix_concat_iff.mp inside with last | inside
    · obtain ⟨front, equal⟩ := last
      have same := congrArg List.getLast? equal
      simp at same
    · have space : ' ' ∈ name := inside.subset (by simp)
      exact declarable.not_mem (by decide) space

/-- The beginning of a render function cannot be read out of an import line. -/
theorem unmarked_printClause (named : ∀ spec ∈ imports, spec.Named) :
    ¬ renderMarker <:+: printClause imports ++ importMarker := by
  -- One place of the marker is enough: the end of its first word and the beginning of the next.
  intro occurs
  have place : ['t', ' ', 'f'] <:+: printClause imports ++ importMarker :=
    List.IsInfix.trans (by decide) occurs
  have parts : printClause imports ++ importMarker = ['i', 'm', 'p', 'o', 'r', 't', ' '] ++
      '\x7b' :: (printItems (imports.map print) ++ '\x7d' :: (' ' :: importMarker)) := by
    simp [printClause]
  rw [parts, Text.infix_append_cons_iff (by decide), Text.infix_append_cons_iff (by decide)]
    at place
  rcases place with front | list | back
  · exact absurd front (by decide)
  · refine not_infix_printItems (by decide) (by decide) ?_ list
    refine List.forall_mem_map.mpr fun spec member inside => ?_
    have parts : ' ' :: (spec.print ++ [' ']) = (' ' :: (spec.imported ++ [' '])) ++
        'a' :: ([] ++ 's' :: (' ' :: (spec.localName ++ [' ']))) := by
      simp [print]
    rw [parts, Text.infix_append_cons_iff (by decide), Text.infix_append_cons_iff (by decide)]
      at inside
    rcases inside with imported | nothing | localName
    · exact not_infix_name (named spec member).imported imported
    · exact absurd nothing (by decide)
    · exact not_infix_name (named spec member).localName localName
  · exact absurd back (by decide)

end Import

namespace Declaration

/-- A declaration that can stand among others: its first line begins a declaration and no other line
does, no blanks stand around it, and it does not hold the beginning of a render function. -/
structure Statement where
  text : Text
  name : Text
  declares : ∃ word rest, Declares text name word [' '] rest
  single : ∀ word ∈ keywords, ¬ '\n' :: (word ++ [' ']) <:+: text
  returns : '\r' ∉ text
  ends : ∀ c ∈ text.getLast?, Text.isBlank c = false
  unmarked : ¬ renderMarker <:+: text

theorem startsIn_iff {line : Text} :
    startsIn line = true ↔ ∃ word ∈ keywords, word ++ [' '] <+: line := by
  simp only [startsIn, List.any_eq_true, List.isPrefixOf_iff_prefix]

/-- Lines of which the first one, and no other one, begins a declaration. -/
def IsGroup (lines : List Text) : Prop :=
  ∃ line others, lines = line :: others ∧ startsIn line = true ∧
    ∀ other ∈ others, startsIn other = false

namespace Statement

theorem exists_cons (statement : Statement) :
    ∃ c rest, statement.text = c :: rest ∧ Lexeme.isWordChar c = true := by
  obtain ⟨word, rest, declares⟩ := statement.declares
  obtain ⟨c, others, rfl, begins, -⟩ :=
    Lexeme.exists_cons_of_isName (isName_of_mem_keywords declares.keyword).1
  exact ⟨c, _, declares.shape, Lexeme.isWordChar_of_isWordStart begins⟩

theorem ne_nil (statement : Statement) : statement.text ≠ [] := by
  obtain ⟨c, rest, equal, -⟩ := statement.exists_cons
  exact equal ▸ List.cons_ne_nil c rest

theorem trimmed (statement : Statement) : Text.Trimmed statement.text where
  starts c first := by
    obtain ⟨d, rest, equal, word⟩ := statement.exists_cons
    rw [equal] at first
    cases first
    exact isBlank_eq_false_of_isWordChar word
  ends := statement.ends

theorem isGroup (statement : Statement) : IsGroup (Text.splitAll '\n' statement.text) := by
  obtain ⟨word, rest, declares⟩ := statement.declares
  have letters : '\n' ∉ word ++ [' '] := by
    intro member
    rcases List.mem_append.mp member with letter | space
    · exact absurd (Lexeme.isWordChar_of_mem_isName (isName_of_mem_keywords declares.keyword).1 _
        letter) (by decide)
    · exact absurd space (by decide)
  have shape : statement.text = (word ++ [' ']) ++ (statement.name ++ rest) := by
    rw [declares.shape, List.append_assoc]
  obtain ⟨piece, others, -, split⟩ :=
    Text.splitAll_append_of_not_mem letters (statement.name ++ rest)
  rw [← shape] at split
  refine ⟨_, others, split, startsIn_iff.mpr ⟨word, declares.keyword, List.prefix_append _ _⟩, ?_⟩
  intro other member
  by_contra starts
  obtain ⟨word, keyword, begins⟩ := startsIn_iff.mp (Bool.not_eq_false _ ▸ starts)
  apply statement.single word keyword
  have line := (Text.prefix_of_splitAll split).2 other member
  exact (List.cons_prefix_cons.mpr ⟨rfl, begins⟩).isInfix.trans line

theorem ofStatement_eq (statement : Statement) :
    ofStatement statement.text = ⟨some statement.name, Fragment.parse statement.text⟩ := by
  obtain ⟨word, rest, declares⟩ := statement.declares
  rw [ofStatement, declares.declaredName?_eq]

end Statement

/-! What the reader makes of lines. -/

theorem groupAfter_append {others : List Text} (inside : ∀ line ∈ others, startsIn line = false)
    (current lines : List Text) :
    groupAfter current (others ++ lines) = groupAfter (current ++ others) lines := by
  induction others generalizing current with
  | nil => simp
  | cons line others ih =>
    obtain ⟨first, inside⟩ := List.forall_mem_cons.mp inside
    rw [List.cons_append, groupAfter, if_neg (by simp [first]), ih inside]
    simp

/-- Lines fall into the groups that they were put together from. -/
theorem group_flatten {groups : List (List Text)} (each : ∀ lines ∈ groups, IsGroup lines) :
    group groups.flatten = groups := by
  have after : ∀ current, groupAfter current groups.flatten = current :: groups := by
    induction groups with
    | nil => exact fun current => rfl
    | cons lines groups ih =>
      intro current
      obtain ⟨⟨line, others, rfl, starts, inside⟩, later⟩ := List.forall_mem_cons.mp each
      rw [List.flatten_cons, List.cons_append, groupAfter, if_pos starts, groupAfter_append inside,
        ih later]
      rfl
  cases groups with
  | nil => rfl
  | cons lines groups =>
    obtain ⟨⟨line, others, rfl, starts, inside⟩, -⟩ := List.forall_mem_cons.mp each
    have whole := after []
    rw [List.flatten_cons, List.cons_append, groupAfter, if_pos starts] at whole
    exact (List.cons.inj whole).2

/-- Statements that are joined are read one by one. -/
theorem parseBlock_joinLines (parts : List Statement) :
    parseBlock (Text.joinLines (parts.map Statement.text)) =
      parts.map fun part => ⟨some part.name, Fragment.parse part.text⟩ := by
  have lines : Text.lines (Text.joinLines (parts.map Statement.text)) =
      (parts.map fun part => Text.splitAll '\n' part.text).flatten := by
    rw [Text.lines_joinLines, List.flatMap_def, List.map_map]
    · rfl
    all_goals refine List.forall_mem_map.mpr fun part _ => ?_
    · exact part.ne_nil
    · exact part.returns
    · intro last
      exact absurd (part.ends '\n' last) (by decide)
  have groups : group (parts.map fun part => Text.splitAll '\n' part.text).flatten =
      parts.map fun part => Text.splitAll '\n' part.text :=
    group_flatten (List.forall_mem_map.mpr fun part _ => part.isGroup)
  have texts : statements (Text.joinLines (parts.map Statement.text)) =
      parts.map Statement.text := by
    have back : (fun lines => Text.trim (Text.joinLines lines)) ∘
        (fun part : Statement => Text.splitAll '\n' part.text) = Statement.text := by
      funext part
      change Text.trim (Text.joinLines (Text.splitAll '\n' part.text)) = part.text
      rw [Text.joinLines, Text.intercalate_splitAll, part.trimmed.trim_self]
    rw [statements, lines, groups, List.map_map, back]
    refine List.filter_eq_self.mpr (List.forall_mem_map.mpr fun part _ => ?_)
    simpa using part.ne_nil
  rw [parseBlock, texts, List.map_map]
  exact List.map_congr_left fun part _ => part.ofStatement_eq

theorem unmarked_joinLines (parts : List Statement) :
    ¬ renderMarker <:+: Text.joinLines (parts.map Statement.text) := by
  induction parts with
  | nil => decide
  | cons part parts ih =>
    cases parts with
    | nil =>
      rw [List.map_singleton, Text.joinLines, List.intercalate_singleton]
      exact part.unmarked
    | cons next parts =>
      rw [List.map_cons, List.map_cons, Text.joinLines, List.intercalate_cons_cons,
        List.append_assoc, List.singleton_append, Text.infix_append_cons_iff (by decide), not_or]
      exact ⟨part.unmarked, ih⟩

end Declaration

namespace Artifact

open Declaration (Statement)

/-- The declarations with blank lines around them. -/
def printBlock (parts : List Statement) : Text :=
  '\n' :: '\n' :: (Text.joinLines (parts.map Statement.text) ++ ['\n', '\n'])

/-- Compiled render code with the given parts. -/
def print (imports : List Import) (parts : List Statement) (tail : Text) : Text :=
  Import.printClause imports ++ (importMarker ++ printBlock parts) ++ (renderMarker ++ tail)

theorem constantsBlock_printBlock (parts : List Statement) :
    constantsBlock (printBlock parts) = Text.joinLines (parts.map Statement.text) := by
  have blank : ∀ c ∈ ['\n', '\n'], Text.isBlank c = true :=
    List.forall_mem_cons.mpr ⟨rfl, List.forall_mem_singleton.mpr rfl⟩
  have trimmed : Text.Trimmed (Text.joinLines (parts.map Statement.text)) :=
    Text.trimmed_joinLines (List.forall_mem_map.mpr fun part _ => part.ne_nil)
      (List.forall_mem_map.mpr fun part _ => part.trimmed)
  have trim : Text.trim (printBlock parts) = Text.joinLines (parts.map Statement.text) :=
    trimmed.trim_eq blank blank
  rw [constantsBlock, trim]
  split
  · next rest joined =>
    -- The block begins with a keyword, or is empty.
    exfalso
    cases parts with
    | nil => exact absurd joined (by simp [Text.joinLines])
    | cons part parts =>
      obtain ⟨c, others, equal, word⟩ := part.exists_cons
      have first := Text.head?_joinLines part.ne_nil (parts.map Statement.text)
      rw [List.map_cons] at joined
      rw [joined, equal, List.head?_cons, List.head?_cons, Option.some.injEq] at first
      rw [← first] at word
      exact absurd word (by decide)
  · rfl

/-- The first beginning of a render function is the one that is printed after the declarations. -/
theorem cut?_renderMarker_print (named : ∀ spec ∈ imports, spec.Named) (parts : List Statement)
    (tail : Text) :
    Text.cut? renderMarker (print imports parts tail) =
      some (Import.printClause imports ++ (importMarker ++ printBlock parts), tail) := by
  apply Text.cut?_append_of_borderless tail (Text.borderless_of_take_ne (by decide)) (by decide)
  have lines : Import.printClause imports ++ (importMarker ++ printBlock parts) =
      (Import.printClause imports ++ importMarker) ++ '\n' :: ([] ++ '\n' ::
        (Text.joinLines (parts.map Statement.text) ++ '\n' :: ['\n'])) := by
    simp [printBlock]
  have newline : '\n' ∉ renderMarker := by decide
  rw [lines, Text.infix_append_cons_iff newline, Text.infix_append_cons_iff newline,
    Text.infix_append_cons_iff newline]
  rintro (clause | nothing | block | nothing)
  · exact Import.unmarked_printClause named clause
  · exact absurd nothing (by decide)
  · exact Declaration.unmarked_joinLines parts block
  · exact absurd nothing (by decide)

/-- The import clause ends where it is printed to end, whatever the declarations hold. -/
theorem cut?_importMarker_print (named : ∀ spec ∈ imports, spec.Named) (parts : List Statement) :
    Text.cut? importMarker (Import.printClause imports ++ (importMarker ++ printBlock parts)) =
      some (Import.printClause imports, printBlock parts) := by
  apply Text.cut?_append_of_borderless _ (Text.borderless_of_take_ne (by decide)) (by decide)
  intro occurs
  have quote : '"' ∈ importMarker := by decide
  exact Import.not_mem_printClause named (occurs.subset quote)

/-- Printed render code is read back: its imports, its declarations with their names and texts, and
the render function without the blanks at its end. -/
theorem parse_print {imports : List Import} (named : ∀ spec ∈ imports, spec.Named)
    (parts : List Statement) (tail : Text) :
    ∃ artifact, parse (print imports parts tail) = .ok artifact ∧ artifact.imports = imports ∧
      artifact.constants.map (fun declaration => (declaration.name, declaration.code.source)) =
        parts.map (fun part => (some part.name, part.text)) ∧
      artifact.render.source = "render".toList ++ Text.trimEnd tail := by
  refine ⟨⟨imports, parts.map fun part => ⟨some part.name, Fragment.parse part.text⟩,
    Fragment.parse ("render".toList ++ Text.trimEnd tail)⟩, ?_, rfl, ?_, Fragment.source_parse _⟩
  · simp only [parse, cut?_renderMarker_print named, cut?_importMarker_print named,
      Import.parseClause_printClause named, constantsBlock_printBlock,
      Declaration.parseBlock_joinLines]
  · rw [List.map_map]
    refine List.map_congr_left fun part _ => ?_
    change (some part.name, (Fragment.parse part.text).source) = _
    rw [Fragment.source_parse]

/-- A declaration over several lines, with the end of an import line and a word that goes on after
a keyword. -/
def hoistedPart : Statement where
  text := "const _hoisted_1 = \x7b\n  title: 'from \"vue\"',\nconstant: 1\n\x7d"
  name := "_hoisted_1"
  declares := by
    refine ⟨"const", " = \x7b\n  title: 'from \"vue\"',\nconstant: 1\n\x7d", rfl,
      by decide, by decide, forall_mem_singleton.mpr rfl,
      isDeclarable_of_isName (by decide), ?_⟩
    rintro c ⟨⟩
    decide
  single := by decide
  returns := by decide
  ends := by
    rintro c ⟨⟩
    decide
  unmarked := by decide

def helperPart : Statement where
  text := "function $f(x) \x7b\n  return x\n\x7d"
  name := "$f"
  declares := by
    refine ⟨"function", "(x) \x7b\n  return x\n\x7d", rfl, by decide, by decide,
      forall_mem_singleton.mpr rfl, isDeclarable_of_isName (by decide), ?_⟩
    rintro c ⟨⟩
    decide
  single := by decide
  returns := by decide
  ends := by
    rintro c ⟨⟩
    decide
  unmarked := by decide

/-- The words of a marker as imported names. -/
def markedImports : List Import :=
  [⟨"export", "function"⟩, ⟨"render", "_r"⟩]

/-- A render function that holds its own marker. -/
def markedTail : Text := "() \x7b return 'export function render' \x7d\n"

theorem parse_print_marked :
    (∀ spec ∈ markedImports, spec.Named) ∧
    print markedImports [hoistedPart, helperPart] markedTail =
      "import \x7b export as function, render as _r \x7d from \"vue\"\n\n".toList ++
        (hoistedPart.text ++ '\n' :: (helperPart.text ++
          "\n\nexport function render() \x7b return 'export function render' \x7d\n".toList)) ∧
    ∃ artifact, parse (print markedImports [hoistedPart, helperPart] markedTail) = .ok artifact ∧
      artifact.imports = markedImports ∧
      artifact.constants.map (fun declaration => (declaration.name, declaration.code.source)) =
        [(some "_hoisted_1".toList, hoistedPart.text), (some "$f".toList, helperPart.text)] ∧
      artifact.render.source = "render() \x7b return 'export function render' \x7d".toList := by
  have named : ∀ spec ∈ markedImports, spec.Named := by
    refine List.forall_mem_cons.mpr ⟨⟨?_, ?_⟩, List.forall_mem_singleton.mpr ⟨?_, ?_⟩⟩
    all_goals exact isDeclarable_of_isName (by decide)
  obtain ⟨artifact, read, imports, constants, render⟩ :=
    parse_print named [hoistedPart, helperPart] markedTail
  have trimmed : "render".toList ++ Text.trimEnd markedTail =
      "render() \x7b return 'export function render' \x7d".toList := by
    decide +kernel
  exact ⟨named, by decide +kernel, artifact, read, imports, constants, render.trans trimmed⟩

end Artifact

end ComponentPack.Render
