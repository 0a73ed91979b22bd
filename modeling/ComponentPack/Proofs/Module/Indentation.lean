import ComponentPack.Proofs.Code.Literals
import ComponentPack.Proofs.Module.Embedding
import ComponentPack.Proofs.Text.Blanks

/-!
What indentation does to literals. Moving lines to the right is a pass over the characters that
knows nothing of quotes (`moved`). A literal that stays on its line comes out as it is; one that
goes over a line feed gets blanks inside (`moved_eq_self_iff`). The literals of render code stand in
the module in their order, each as it comes out of the pass (`literals_of_assemble`).
-/

set_option autoImplicit false

namespace ComponentPack.Module

open Text Code List

variable {c : Char} {line text : Text}

/-- Where a character stands in a text whose lines are moved. -/
inductive Place where
  /-- In a first line that is left alone. -/
  | head
  /-- Somewhere in a line. -/
  | inner
  /-- At the beginning of a line. -/
  | fresh
deriving DecidableEq, Repr

/-- The place after a character. -/
def Place.next (place : Place) (c : Char) : Place :=
  if c = '\n' then .fresh else if place = .head then .head else .inner

/-- The place after a text. -/
def Place.after (place : Place) (text : Text) : Place := text.foldl Place.next place

/-- The text with its lines moved to the right, empty ones excepted. Outside of a first line that is
left alone, a carriage return before a line feed is dropped. -/
def moved (width : Nat) (place : Place) : Text → Text
  | [] => []
  | c :: rest =>
    if c = '\n' then c :: moved width .fresh rest
    else if place = .head then c :: moved width .head rest
    else if c = '\r' ∧ rest.head? = some '\n' then moved width .inner rest
    else (if place = .fresh then List.replicate width ' ' else []) ++ c :: moved width .inner rest

/-- A line that is moved to the right unless it is empty. -/
def shifted (width : Nat) (line : Text) : Text :=
  if line.isEmpty then [] else List.replicate width ' ' ++ line

variable {width : Nat} {place : Place}

theorem moved_feed (width : Nat) (place : Place) (rest : Text) :
    moved width place ('\n' :: rest) = '\n' :: moved width .fresh rest := by
  rw [moved, if_pos rfl]

theorem moved_head (other : c ≠ '\n') (rest : Text) :
    moved width .head (c :: rest) = c :: moved width .head rest := by
  rw [moved, if_neg other, if_pos rfl]

theorem moved_inner (other : c ≠ '\n') {rest : Text} (kept : c = '\r' → rest.head? ≠ some '\n') :
    moved width .inner (c :: rest) = c :: moved width .inner rest := by
  rw [moved, if_neg other, if_neg (by decide), if_neg fun pair => kept pair.1 pair.2]
  rfl

theorem moved_fresh (other : c ≠ '\n') {rest : Text} (kept : c = '\r' → rest.head? ≠ some '\n') :
    moved width .fresh (c :: rest) =
      List.replicate width ' ' ++ moved width .inner (c :: rest) := by
  rw [moved_inner other kept, moved, if_neg other, if_neg (by decide),
    if_neg fun pair => kept pair.1 pair.2]
  rfl

theorem moved_return (outside : place ≠ .head) (rest : Text) :
    moved width place ('\r' :: '\n' :: rest) = '\n' :: moved width .fresh rest := by
  rw [moved, if_neg (by decide), if_neg outside, if_pos ⟨rfl, rfl⟩, moved_feed]

theorem moved_append (width : Nat) (place : Place) {a b : Text}
    (apart : a.getLast? = some '\r' → b.head? ≠ some '\n') :
    moved width place (a ++ b) = moved width place a ++ moved width (place.after a) b := by
  induction a generalizing place with
  | nil => rfl
  | cons c a ih =>
    have later : a.getLast? = some '\r' → b.head? ≠ some '\n' := by
      intro ends
      apply apart
      rw [List.getLast?_cons, ends]
      rfl
    have same : (c = '\r' ∧ (a ++ b).head? = some '\n') ↔ (c = '\r' ∧ a.head? = some '\n') := by
      cases a with
      | nil =>
        constructor
        · rintro ⟨rfl, feed⟩
          exact absurd feed (apart rfl)
        · rintro ⟨-, feed⟩
          cases feed
      | cons d a => exact Iff.rfl
    have step : place.after (c :: a) = (place.next c).after a := rfl
    rw [step, Place.next, cons_append]
    by_cases feed : c = '\n'
    · rw [moved, moved, if_pos feed, if_pos feed, if_pos feed, ih .fresh later]
      rfl
    · rw [if_neg feed]
      by_cases first : place = .head
      · rw [if_pos first, moved, moved, if_neg feed, if_neg feed, if_pos first, if_pos first,
          ih .head later]
        rfl
      · rw [if_neg first, moved, moved, if_neg feed, if_neg feed, if_neg first, if_neg first,
          ih .inner later]
        simp only [same]
        split
        · rfl
        · rw [append_assoc]
          rfl

theorem moved_line (kept : place ≠ .fresh) (single : '\n' ∉ line) :
    moved width place line = line := by
  induction line generalizing place with
  | nil => rfl
  | cons c line ih =>
    rw [mem_cons, not_or] at single
    have other : c ≠ '\n' := Ne.symm single.1
    cases place with
    | fresh => exact absurd rfl kept
    | head => rw [moved_head other, ih (by decide) single.2]
    | inner =>
      have apart : c = '\r' → line.head? ≠ some '\n' := fun _ feed =>
        single.2 (mem_of_mem_head? feed)
      rw [moved_inner other apart, ih (by decide) single.2]

theorem shifted_of_ne_nil (filled : line ≠ []) :
    shifted width line = List.replicate width ' ' ++ line :=
  if_neg (by rwa [List.isEmpty_iff])

theorem moved_fresh_line (single : '\n' ∉ line) : moved width .fresh line = shifted width line := by
  cases line with
  | nil => rfl
  | cons c rest =>
    have inside : '\n' ∉ rest := fun member => single (mem_cons_of_mem c member)
    have other : c ≠ '\n' := fun same => single (same ▸ mem_cons_self)
    have apart : c = '\r' → rest.head? ≠ some '\n' := fun _ feed =>
      inside (mem_of_mem_head? feed)
    rw [moved_fresh other apart, moved_line (by decide) single,
      shifted_of_ne_nil (cons_ne_nil c rest)]

theorem exists_moved_concat_feed (width : Nat) (place : Place) (text : Text) :
    ∃ front, moved width place (text ++ ['\n']) = front ++ ['\n'] := by
  induction text generalizing place with
  | nil => exact ⟨[], moved_feed width place []⟩
  | cons c text ih =>
    rw [cons_append, moved]
    split
    · obtain ⟨front, same⟩ := ih .fresh
      exact ⟨c :: front, congrArg (c :: ·) same⟩
    · split
      · obtain ⟨front, same⟩ := ih .head
        exact ⟨c :: front, congrArg (c :: ·) same⟩
      · obtain ⟨front, same⟩ := ih .inner
        split
        · exact ⟨front, same⟩
        · rw [same, ← cons_append, ← append_assoc]
          exact ⟨_, rfl⟩

theorem exists_last_line (feed : '\n' ∈ text) :
    ∃ front line, text = front ++ '\n' :: line ∧ '\n' ∉ line := by
  obtain ⟨line, front, whole, single⟩ := eq_append_cons_of_mem (mem_reverse.mpr feed)
  refine ⟨front.reverse, line.reverse, ?_, by rwa [mem_reverse]⟩
  rw [← reverse_reverse text, whole]
  simp

theorem last_line_unique {a b line' : Text} (same : a ++ '\n' :: line = b ++ '\n' :: line')
    (single : '\n' ∉ line) (single' : '\n' ∉ line') : line = line' := by
  have cut := cutLast?_append a single
  rw [same, cutLast?_append b single', Option.some.injEq, Prod.mk.injEq] at cut
  exact cut.2.symm

/-- The last line of a text is moved, if it has another line before it. -/
theorem exists_moved_last_line (width : Nat) (place : Place) (front : Text) (single : '\n' ∉ line)
    (filled : line ≠ []) :
    ∃ before, moved width place (front ++ '\n' :: line) =
      before ++ '\n' :: (List.replicate width ' ' ++ line) := by
  have apart : (front ++ ['\n']).getLast? = some '\r' → line.head? ≠ some '\n' := by
    intro ends
    rw [List.getLast?_concat] at ends
    exact absurd (Option.some.inj ends) (by decide)
  have fresh : place.after (front ++ ['\n']) = .fresh := by
    rw [Place.after, foldl_concat]
    rfl
  obtain ⟨before, same⟩ := exists_moved_concat_feed width place front
  refine ⟨before, ?_⟩
  rw [← singleton_append, ← append_assoc, moved_append width place apart, same, fresh,
    moved_fresh_line single, shifted_of_ne_nil filled, append_assoc]
  rfl

theorem after_ne_head (outside : place ≠ .head) (text : Text) : place.after text ≠ .head := by
  induction text generalizing place with
  | nil => exact outside
  | cons c text ih =>
    apply ih
    rw [Place.next, if_neg outside]
    split <;> decide

/-- A line with its line feed comes out without the carriage return at its end. -/
theorem moved_fresh_feed (single : '\n' ∉ line) (rest : Text) :
    moved width .fresh (line ++ '\n' :: rest) =
      shifted width (dropReturn line) ++ '\n' :: moved width .fresh rest := by
  rw [dropReturn]
  split
  · next last =>
    obtain ⟨front, rfl⟩ := List.getLast?_eq_some_iff.mp last
    have inside : '\n' ∉ front := fun member => single (mem_append_left _ member)
    rw [dropLast_concat, append_assoc, moved_append width .fresh (by simp),
      moved_fresh_line inside]
    exact congrArg _ (moved_return (after_ne_head (by decide) front) rest)
  · next last =>
    rw [moved_append width .fresh (absurd · last), moved_feed, moved_fresh_line single]

theorem moved_head_feed (single : '\n' ∉ line) (rest : Text) :
    moved width .head (line ++ '\n' :: rest) = line ++ '\n' :: moved width .fresh rest := by
  induction line with
  | nil => exact moved_feed width .head rest
  | cons c line ih =>
    rw [mem_cons, not_or] at single
    rw [cons_append, moved_head (Ne.symm single.1), ih single.2, cons_append]

/-- The pass is the indentation, up to a line feed at the end. -/
theorem exists_moved_eq_indent (width : Nat) (text : Text) :
    ∃ ending, (ending = [] ∨ ending = ['\n']) ∧
      moved width .fresh text = indent width text ++ ending := by
  induction text using line_induction with
  | nil => exact ⟨[], .inl rfl, rfl⟩
  | last line filled single =>
    refine ⟨[], .inl rfl, ?_⟩
    rw [indent, lines_of_single filled single, map_singleton, joinLines_singleton,
      append_nil]
    exact moved_fresh_line single
  | step line rest single ih =>
    obtain ⟨ending, form, same⟩ := ih
    rw [indent] at same ⊢
    rw [moved_fresh_feed single, same, lines_append_feed single, map_cons]
    cases found : lines rest with
    | nil =>
      have empty : rest = [] := by
        cases rest with
        | nil => rfl
        | cons c rest => exact absurd found (lines_ne_nil c rest)
      subst empty
      have none : ending = [] := (append_eq_nil_iff.mp same.symm).2
      refine ⟨['\n'], .inr rfl, ?_⟩
      rw [none, map_nil, joinLines_singleton]
      rfl
    | cons next others =>
      refine ⟨ending, form, ?_⟩
      rw [map_cons, joinLines, joinLines, intercalate_cons_cons, append_assoc,
        append_assoc]
      rfl

theorem exists_moved_eq_indentTail (width : Nat) (text : Text) :
    ∃ ending, (ending = [] ∨ ending = ['\n']) ∧
      moved width .head text = indentTail width text ++ ending := by
  rcases cut?_newline text with ⟨cut, single⟩ | ⟨line, rest, cut, rfl, single⟩
  · refine ⟨[], .inl rfl, ?_⟩
    rw [indentTail, cut, append_nil]
    exact moved_line (by decide) single
  · obtain ⟨ending, form, same⟩ := exists_moved_eq_indent width rest
    refine ⟨ending, form, ?_⟩
    rw [indentTail, cut, moved_head_feed single, same, append_assoc]
    rfl

/-- A text begins and ends in the middle of lines. -/
structure Solid (text : Text) : Prop where
  starts : ∃ c, text.head? = some c ∧ c ≠ '\n' ∧ c ≠ '\r'
  ends : ∃ c, text.getLast? = some c ∧ c ≠ '\n' ∧ c ≠ '\r'

namespace Solid

variable {text : Text}

theorem of_mem_literals {code literal : Text} (member : literal ∈ literals code) :
    Solid literal := by
  obtain ⟨quote, body, opens, -, rfl⟩ := form_of_mem_literals member
  have apart := Lexeme.of_isQuote (fun c => c != '\n' && c != '\r') (by decide) opens
  simp only [Bool.and_eq_true, bne_iff_ne] at apart
  refine ⟨⟨quote, rfl, apart⟩, ⟨quote, ?_, apart⟩⟩
  rw [← cons_append, List.getLast?_concat]

theorem moved_fresh_eq (solid : Solid text) :
    moved width .fresh text = List.replicate width ' ' ++ moved width .inner text := by
  obtain ⟨c, first, feed, returns⟩ := solid.starts
  obtain ⟨rest, rfl⟩ := List.head?_eq_some_iff.mp first
  exact moved_fresh feed fun same => absurd same returns

/-- The last character stays the last one. -/
theorem getLast?_moved (solid : Solid text) (width : Nat) (place : Place) :
    (moved width place text).getLast? = text.getLast? := by
  obtain ⟨c, last, feed, returns⟩ := solid.ends
  obtain ⟨front, rfl⟩ := List.getLast?_eq_some_iff.mp last
  have single (place : Place) : ∃ pad, moved width place [c] = pad ++ [c] := by
    cases place with
    | head => exact ⟨[], moved_head feed []⟩
    | inner => exact ⟨[], moved_inner feed fun same => absurd same returns⟩
    | fresh =>
      have filled : [c] ≠ [] := cons_ne_nil c []
      have single : '\n' ∉ [c] := fun member => feed (mem_singleton.mp member).symm
      exact ⟨_, (moved_fresh_line single).trans (shifted_of_ne_nil filled)⟩
  obtain ⟨pad, same⟩ := single (place.after front)
  have apart : front.getLast? = some '\r' → [c].head? ≠ some '\n' := by
    intro _ begins
    exact feed (Option.some.inj begins)
  rw [moved_append width place apart, same, ← append_assoc, List.getLast?_concat,
    List.getLast?_concat]

/-- What a literal keeps: its lines are moved unless there is only one. -/
theorem moved_eq_self_iff (solid : Solid text) (positive : 0 < width) (kept : place ≠ .fresh) :
    moved width place text = text ↔ '\n' ∉ text := by
  constructor
  · intro same feed
    obtain ⟨front, line, rfl, single⟩ := exists_last_line feed
    have filled : line ≠ [] := by
      rintro rfl
      obtain ⟨c, last, other, -⟩ := solid.ends
      rw [List.getLast?_concat] at last
      exact other (Option.some.inj last).symm
    obtain ⟨before, image⟩ := exists_moved_last_line width place front single filled
    have blanks : '\n' ∉ List.replicate width ' ' ++ line := by
      rw [mem_append, not_or]
      exact ⟨fun member => absurd (eq_of_mem_replicate member) (by decide), single⟩
    have longer := congrArg List.length (last_line_unique (image.symm.trans same) blanks single)
    rw [length_append, length_replicate] at longer
    omega
  · exact moved_line kept

end Solid

/-- A literal as a module carries it. It has been moved from one of the places, and it is the same
exactly if it is on one line. -/
def Carried (width : Nat) (places : List Place) (literal image : Text) : Prop :=
  (∃ place ∈ places, image = moved width place literal) ∧ (image = literal ↔ '\n' ∉ literal)

theorem Solid.carried {literal : Text} (solid : Solid literal) (positive : 0 < width)
    {places : List Place} (among : place ∈ places) (kept : place ≠ .fresh) :
    Carried width places literal (moved width place literal) :=
  ⟨⟨place, among, rfl⟩, solid.moved_eq_self_iff positive kept⟩

/-- Texts inside of a text go with its pass. One that begins a line leaves the blanks before it
outside. -/
theorem exists_woven_moved (positive : 0 < width) {parts : List Text} (woven : Woven parts text)
    (solid : ∀ part ∈ parts, Solid part) {places : List Place} (inner : .inner ∈ places)
    (place : Place) (head : place = .head → .head ∈ places) :
    ∃ images, List.Forall₂ (Carried width places) parts images ∧
      Woven images (moved width place text) := by
  induction woven generalizing place with
  | nil text => exact ⟨[], .nil, .nil _⟩
  | cons gap part later ih =>
    rename_i parts rest
    obtain ⟨solid, others⟩ := forall_mem_cons.mp solid
    obtain ⟨first, begins, feed, -⟩ := solid.starts
    obtain ⟨last, ends, -, returns⟩ := solid.ends
    have before : gap.getLast? = some '\r' → (part ++ rest).head? ≠ some '\n' := by
      intro _ same
      rw [List.head?_append, begins] at same
      exact feed (Option.some.inj same)
    have behind : part.getLast? = some '\r' → rest.head? ≠ some '\n' := by
      intro same
      exact absurd (Option.some.inj (ends.symm.trans same)) returns
    have started (text : Text) (there : place.after text = .head) : place = .head := by
      by_contra outside
      exact after_ne_head outside text there
    obtain ⟨images, related, woven⟩ := ih others ((place.after gap).after part) fun there =>
      head (started (gap ++ part) (by rwa [Place.after, foldl_append]))
    rw [moved_append width place before, moved_append width _ behind]
    cases there : place.after gap with
    | head =>
      rw [there] at woven
      have kept := solid.carried positive (head (started gap there)) (by decide)
      exact ⟨_, .cons kept related, .cons _ _ woven⟩
    | inner =>
      rw [there] at woven
      exact ⟨_, .cons (solid.carried positive inner (by decide)) related, .cons _ _ woven⟩
    | fresh =>
      rw [there] at woven
      rw [solid.moved_fresh_eq, append_assoc, ← append_assoc (moved width place gap)]
      exact ⟨_, .cons (solid.carried positive inner (by decide)) related, .cons _ _ woven⟩

theorem Carried.woven_of_concat {places : List Place} {parts images : List Text} {ending : Text}
    (related : List.Forall₂ (Carried width places) parts images)
    (solid : ∀ part ∈ parts, Solid part) (form : ending = [] ∨ ending = ['\n'])
    (woven : Woven images (text ++ ending)) : Woven images text := by
  have ends : ∀ image ∈ images, ∃ c, image.getLast? = some c ∧ c ≠ '\n' := by
    clear woven
    induction related with
    | nil => exact fun _ member => absurd member not_mem_nil
    | cons carried _ ih =>
      obtain ⟨first, others⟩ := forall_mem_cons.mp solid
      obtain ⟨⟨place, -, rfl⟩, -⟩ := carried
      obtain ⟨c, last, feed, -⟩ := first.ends
      refine forall_mem_cons.mpr ⟨⟨c, ?_, feed⟩, ih others⟩
      rw [first.getLast?_moved, last]
  rcases form with rfl | rfl
  · rwa [append_nil] at woven
  · exact woven.of_concat ends

theorem woven_joinLines_literals (constants : List Text) :
    Woven (constants.flatMap literals) (joinLines constants) := by
  induction constants with
  | nil => exact .nil _
  | cons first constants ih =>
    cases constants with
    | nil =>
      rw [joinLines_singleton, flatMap_singleton]
      exact woven_literals first
    | cons second constants =>
      rw [joinLines, intercalate_cons_cons, flatMap_cons, append_assoc]
      exact (woven_literals first).append (ih.prepend ['\n'])

theorem exists_woven_constantLines (render : Render.Reconciled) :
    ∃ images, List.Forall₂ (Carried 4 [.inner]) (render.constants.flatMap literals) images ∧
      Woven images (constantLines (.compiled render)) := by
  have solid : ∀ literal ∈ render.constants.flatMap literals, Solid literal := by
    intro literal member
    obtain ⟨constant, -, inside⟩ := mem_flatMap.mp member
    exact .of_mem_literals inside
  obtain ⟨images, related, woven⟩ := exists_woven_moved (show 0 < 4 by decide)
    (woven_joinLines_literals render.constants) solid mem_cons_self .fresh nofun
  obtain ⟨ending, form, same⟩ := exists_moved_eq_indent 4 (joinLines render.constants)
  rw [same] at woven
  have slot := Carried.woven_of_concat related solid form woven
  refine ⟨images, related, ?_⟩
  rw [constantLines, ifAny]
  split
  · next empty => rwa [isEmpty_iff.mp empty] at slot
  · exact slot.append_right ['\n']

theorem exists_woven_renderLines (render : Render.Reconciled) :
    ∃ images, List.Forall₂ (Carried 2 [.head, .inner]) (literals render.render) images ∧
      Woven images (renderLines (.compiled render)) := by
  have solid : ∀ literal ∈ literals render.render, Solid literal := fun _ => .of_mem_literals
  have inner : Place.inner ∈ [Place.head, .inner] := by decide
  obtain ⟨images, related, woven⟩ := exists_woven_moved (show 0 < 2 by decide)
    (woven_literals render.render) solid inner .head fun _ => mem_cons_self
  obtain ⟨ending, form, same⟩ := exists_moved_eq_indentTail 2 render.render
  rw [same] at woven
  have slot := Carried.woven_of_concat related solid form woven
  refine ⟨images, related, ?_⟩
  rw [renderLines]
  split
  · next empty =>
    rw [isEmpty_iff.mp empty] at slot
    exact Woven.append_right slot _
  · exact ((slot.prepend _).append_right _).append_right _

/-- The literals of the constants and of the render code stand in the module in their order. One
that is on one line is there as it is; of the others each line but the first is moved. -/
theorem literals_of_assemble (runtime : Render.Runtime) (name : Text) (render : Render.Reconciled)
    (members : Text) (messages : Localization.Table) :
    ∃ constants code,
      List.Forall₂ (Carried 4 [.inner]) (render.constants.flatMap literals) constants ∧
      List.Forall₂ (Carried 2 [.head, .inner]) (literals render.render) code ∧
      Woven (constants ++ code) (assemble runtime name (.compiled render) members messages) := by
  obtain ⟨constants, relatedConstants, first⟩ := exists_woven_constantLines render
  obtain ⟨code, relatedCode, second⟩ := exists_woven_renderLines render
  refine ⟨constants, code, relatedConstants, relatedCode, ?_⟩
  rw [assemble_eq]
  refine Woven.append ?_ (second.append_right _)
  rw [openingLines]
  iterate 7 apply Woven.append_right
  exact first.prepend _

/-- The module of a constant whose literal goes over two lines does not have the literal in it. -/
theorem not_woven_literals_assemble :
    ∃ render : Render.Reconciled, render.constants = ["const a = \x60x\ny\x60".toList] ∧
      ¬ Woven (render.constants.flatMap literals ++ literals render.render)
        (assemble {} ['A'] (.compiled render) [] .empty) := by
  refine ⟨⟨["const a = \x60x\ny\x60".toList], [['a']], "render() \x7b\x7d".toList⟩, rfl, ?_⟩
  intro woven
  have literal : "\x60x\ny\x60".toList ∈ literals "const a = \x60x\ny\x60".toList := by
    decide +kernel
  have inside := woven.infix_of_mem
    (List.mem_append_left _ (List.mem_flatMap_of_mem List.mem_cons_self literal))
  rw [← contains_iff_infix] at inside
  revert inside
  decide +kernel

end ComponentPack.Module
