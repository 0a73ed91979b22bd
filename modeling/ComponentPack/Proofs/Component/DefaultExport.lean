import Mathlib
import ComponentPack.Component.Sections
import ComponentPack.Proofs.Text.Blanks

/-!
Scripts that export an object. `Exported` writes down the grammar of `export default { ... }`, with
any text between the braces; the readers of a script take off one part of it after the other, each
exactly where it is written, so that the members of a script are the body of what it exports.
-/

set_option autoImplicit false

namespace ComponentPack.Component

open List

variable {rest script : Text}

namespace Script

/-- An exported object as it is written. -/
structure Exported where
  /-- The blanks after `export`. -/
  gap : Text
  apart : gap ≠ []
  gapBlank : ∀ c ∈ gap, Text.isBlank c = true
  /-- The blanks before the opening brace. -/
  space : Text
  spaceBlank : ∀ c ∈ space, Text.isBlank c = true
  /-- Any text, braces and semicolons included. -/
  body : Text
  /-- The blanks before the semicolon, if there is one. -/
  semicolon : Option Text
  semicolonBlank : ∀ blanks ∈ semicolon, ∀ c ∈ blanks, Text.isBlank c = true

namespace Exported

/-- What stands after the closing brace. -/
def ending (object : Exported) : Text :=
  match object.semicolon with
  | none => []
  | some blanks => blanks ++ [';']

def text (object : Exported) : Text :=
  "export" ++ (object.gap ++ ("default" ++ (object.space ++
    '\x7b' :: (object.body ++ '\x7d' :: object.ending))))

end Exported

theorem withoutLast?_eq_some_iff {c : Char} {text front : Text} :
    withoutLast? c text = some front ↔ text = front ++ [c] := by
  rw [withoutLast?, List.isSuffixOf?_eq_some_iff_append_eq, eq_comm]

theorem withoutLast?_trimEnd_eq_some_iff {c : Char} (shown : Text.isBlank c = false)
    {text front : Text} :
    withoutLast? c (Text.trimEnd text) = some front ↔
      ∃ gap, (∀ d ∈ gap, Text.isBlank d = true) ∧ text = front ++ c :: gap := by
  rw [withoutLast?_eq_some_iff]
  constructor
  · intro ends
    obtain ⟨gap, whole, blank, -⟩ := Text.exists_trimEnd text
    refine ⟨gap, blank, ?_⟩
    rw [ends, append_assoc] at whole
    exact whole
  · rintro ⟨gap, blank, rfl⟩
    have last : ∀ d ∈ (front ++ [c]).getLast?, Text.isBlank d = false := by
      simpa using shown
    have dropped := Text.trimEnd_append last blank
    rwa [append_assoc] at dropped

/-- The body in what follows the opening brace, as it is written. -/
def body? (rest : Text) : Option Text :=
  withoutLast? '\x7d' (Text.trimEnd ((withoutLast? ';' rest).getD rest))

theorem body?_eq_some_iff {body : Text} (ends : ∀ c ∈ rest.getLast?, Text.isBlank c = false) :
    body? rest = some body ↔
      rest = body ++ ['\x7d'] ∨
        ∃ gap, (∀ c ∈ gap, Text.isBlank c = true) ∧ rest = body ++ '\x7d' :: (gap ++ [';']) := by
  have brace : Text.isBlank '\x7d' = false := by decide
  rw [body?]
  cases last : withoutLast? ';' rest with
  | some front =>
    rw [Option.getD_some, withoutLast?_trimEnd_eq_some_iff brace]
    rw [withoutLast?_eq_some_iff] at last
    subst last
    constructor
    · rintro ⟨gap, blank, rfl⟩
      exact .inr ⟨gap, blank, by simp⟩
    · rintro (closed | ⟨gap, blank, closed⟩)
      · have same := congrArg List.getLast? closed
        simp at same
      · refine ⟨gap, blank, ?_⟩
        rw [← cons_append, ← append_assoc] at closed
        exact (append_inj' closed rfl).1
  | none =>
    rw [Option.getD_none, withoutLast?_trimEnd_eq_some_iff brace]
    constructor
    · rintro ⟨gap, blank, rfl⟩
      -- The text does not end with a blank, so that nothing stands behind the brace.
      rcases eq_nil_or_concat gap with rfl | ⟨front, c, rfl⟩
      · exact .inl rfl
      · rw [concat_eq_append] at blank ends
        have last' : (body ++ '\x7d' :: (front ++ [c])).getLast? = some c := by
          rw [← cons_append, ← append_assoc, List.getLast?_concat]
        have other := ends c last'
        rw [blank c (mem_append_right front mem_cons_self)] at other
        cases other
    · rintro (closed | ⟨gap, -, closed⟩)
      · exact ⟨[], by simp, closed⟩
      · have found : withoutLast? ';' rest = some (body ++ '\x7d' :: gap) := by
          rw [withoutLast?_eq_some_iff, closed]
          simp
        rw [last] at found
        cases found

theorem afterDefault?_eq_some_iff :
    afterDefault? script = some rest ↔
      ∃ gap space, gap ≠ [] ∧ (∀ c ∈ gap, Text.isBlank c = true) ∧
        (∀ c ∈ space, Text.isBlank c = true) ∧
        Text.trim script =
          "export" ++ (gap ++ ("default" ++ (space ++ '\x7b' :: rest))) := by
  have defaultShown : "default".toList.head?.any Text.isBlank = false := by decide
  have braceShown : ['\x7b'].head?.any Text.isBlank = false := by decide
  constructor
  · intro read
    unfold afterDefault? at read
    split at read
    · next c tail exported =>
      have whole := Text.eq_append_of_isPrefixOf? exported
      split at read
      · next blank =>
        split at read
        · next after found =>
          obtain ⟨gap, gapBlank, rfl⟩ :=
            (Text.isPrefixOf?_trimStart_eq_some_iff (by decide) defaultShown).mp found
          obtain ⟨space, spaceBlank, rfl⟩ :=
            (Text.isPrefixOf?_trimStart_eq_some_iff (by decide) braceShown).mp read
          refine ⟨c :: gap, space, cons_ne_nil c gap, ?_, spaceBlank, whole⟩
          intro d member
          rcases mem_cons.mp member with rfl | inside
          · exact blank
          · exact gapBlank d inside
        · cases read
      · cases read
    · cases read
  · rintro ⟨gap, space, apart, gapBlank, spaceBlank, whole⟩
    obtain ⟨c, blanks, rfl⟩ := exists_cons_of_ne_nil apart
    have exported : "export".toList.isPrefixOf? (Text.trim script) =
        some (c :: (blanks ++ ("default" ++ (space ++ '\x7b' :: rest)))) :=
      List.isPrefixOf?_eq_some_iff_append_eq.mpr whole.symm
    have found : "default".toList.isPrefixOf?
        (Text.trimStart (blanks ++ ("default" ++ (space ++ '\x7b' :: rest)))) =
          some (space ++ '\x7b' :: rest) :=
      (Text.isPrefixOf?_trimStart_eq_some_iff (by decide) defaultShown).mpr
        ⟨blanks, fun d member => gapBlank d (mem_cons_of_mem c member), rfl⟩
    have opened : ['\x7b'].isPrefixOf? (Text.trimStart (space ++ '\x7b' :: rest)) = some rest :=
      (Text.isPrefixOf?_trimStart_eq_some_iff (by decide) braceShown).mpr ⟨space, spaceBlank, rfl⟩
    have blank : Text.isBlank c = true := gapBlank c mem_cons_self
    simp only [afterDefault?, exported, blank, if_true, found, opened]

theorem ends_of_afterDefault? (read : afterDefault? script = some rest) :
    ∀ c ∈ rest.getLast?, Text.isBlank c = false := by
  obtain ⟨gap, space, -, -, -, whole⟩ := afterDefault?_eq_some_iff.mp read
  intro c last
  apply (Text.trimmed_trim script).ends
  have split : Text.trim script =
      ("export" ++ gap ++ "default" ++ space ++ ['\x7b']) ++ rest := by
    simp [whole]
  rw [split, List.getLast?_append, Option.mem_def.mp last]
  rfl

theorem members?_of_afterDefault? (read : afterDefault? script = some rest) :
    members? script = (body? rest).map Text.trim := by
  have kept : Text.trimEnd rest = rest := by
    have dropped : Text.trimEnd (rest ++ []) = rest :=
      Text.trimEnd_append (ends_of_afterDefault? read) (by simp)
    rwa [append_nil] at dropped
  simp only [members?, read, kept, body?]

/-- What is written between the braces is what the readers find there. -/
theorem exists_exported_iff {body : Text} :
    (∃ object : Exported, Text.trim script = object.text ∧ object.body = body) ↔
      ∃ rest, afterDefault? script = some rest ∧ body? rest = some body := by
  constructor
  · rintro ⟨object, whole, rfl⟩
    have read : afterDefault? script = some (object.body ++ '\x7d' :: object.ending) :=
      afterDefault?_eq_some_iff.mpr ⟨object.gap, object.space, object.apart, object.gapBlank,
        object.spaceBlank, whole⟩
    refine ⟨_, read, (body?_eq_some_iff (ends_of_afterDefault? read)).mpr ?_⟩
    cases semicolon : object.semicolon with
    | none =>
      left
      rw [Exported.ending, semicolon]
    | some blanks =>
      right
      refine ⟨blanks, object.semicolonBlank blanks semicolon, ?_⟩
      rw [Exported.ending, semicolon]
  · rintro ⟨rest, read, closed⟩
    obtain ⟨gap, space, apart, gapBlank, spaceBlank, whole⟩ := afterDefault?_eq_some_iff.mp read
    have parts := (body?_eq_some_iff (ends_of_afterDefault? read)).mp closed
    rcases parts with rfl | ⟨blanks, blank, rfl⟩
    · exact ⟨⟨gap, apart, gapBlank, space, spaceBlank, body, none, by simp⟩, whole, rfl⟩
    · refine ⟨⟨gap, apart, gapBlank, space, spaceBlank, body, some blanks, ?_⟩, whole, rfl⟩
      rintro _ ⟨⟩
      exact blank

theorem members?_eq_some_iff {script found : Text} :
    members? script = some found ↔
      ∃ object : Exported, Text.trim script = object.text ∧ found = Text.trim object.body := by
  constructor
  · intro read
    cases exported : afterDefault? script with
    | none =>
      rw [members?, exported] at read
      cases read
    | some rest =>
      rw [members?_of_afterDefault? exported] at read
      obtain ⟨body, closed, rfl⟩ := Option.map_eq_some_iff.mp read
      obtain ⟨object, whole, rfl⟩ := exists_exported_iff.mpr ⟨rest, exported, closed⟩
      exact ⟨object, whole, rfl⟩
  · rintro ⟨object, whole, rfl⟩
    obtain ⟨rest, exported, closed⟩ := exists_exported_iff.mp ⟨object, whole, rfl⟩
    rw [members?_of_afterDefault? exported, closed]
    rfl

theorem Exported.body_unique {object object' : Exported} (whole : Text.trim script = object.text)
    (whole' : Text.trim script = object'.text) : object.body = object'.body := by
  obtain ⟨rest, read, closed⟩ := exists_exported_iff.mp ⟨object, whole, rfl⟩
  obtain ⟨rest', read', closed'⟩ := exists_exported_iff.mp ⟨object', whole', rfl⟩
  rw [read] at read'
  cases read'
  rw [closed] at closed'
  exact Option.some.inj closed'

end Script

/-- A script has members exactly if it exports an object, and then they are the one text between
the braces, without the blanks around it; every other script lacks its default export. -/
theorem Sections.members_exported (sections : Sections) :
    (∀ found, sections.members = .ok found ↔
      ∃ object : Script.Exported,
        Text.trim sections.script = object.text ∧ found = Text.trim object.body) ∧
    (∀ e, sections.members = .error e ↔
      e = .missingDefaultExport ∧
        ¬ ∃ object : Script.Exported, Text.trim sections.script = object.text) ∧
    ∀ object object' : Script.Exported, Text.trim sections.script = object.text →
      Text.trim sections.script = object'.text → object.body = object'.body := by
  have accepted := @Script.members?_eq_some_iff sections.script
  refine ⟨fun found => ?_, fun e => ?_, fun object object' => Script.Exported.body_unique⟩
  · rw [← accepted, members, Script.members]
    cases Script.members? sections.script <;> simp
  · rw [members, Script.members]
    cases read : Script.members? sections.script with
    | none =>
      have none_exported : ¬ ∃ object : Script.Exported,
          Text.trim sections.script = object.text := by
        rintro ⟨object, whole⟩
        have found := accepted.mpr ⟨object, whole, rfl⟩
        rw [read] at found
        cases found
      simp [none_exported, eq_comm]
    | some body =>
      obtain ⟨object, whole, -⟩ := accepted.mp read
      have exported : ∃ object : Script.Exported, Text.trim sections.script = object.text :=
        ⟨object, whole⟩
      simp [exported]

/-- Braces and semicolons at both ends of the body, and a semicolon after a blank. -/
def Script.braced : Script.Exported where
  gap := ['\t']
  apart := cons_ne_nil _ _
  gapBlank := forall_mem_singleton.mpr rfl
  space := []
  spaceBlank := forall_mem_nil _
  body := " \x7b\x7d;\x7d; "
  semicolon := some [' ']
  semicolonBlank := by
    rintro _ ⟨⟩
    exact forall_mem_singleton.mpr rfl

theorem Sections.members_exported_braced :
    Sections.members ⟨[], " export\tdefault\x7b \x7b\x7d;\x7d; \x7d ;\n".toList, [], []⟩ =
      .ok "\x7b\x7d;\x7d;".toList :=
  ((members_exported _).1 _).mpr ⟨Script.braced, by decide, by decide⟩

end ComponentPack.Component
