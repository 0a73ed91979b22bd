import Mathlib
import ComponentPack.Proofs.Component.LetterCase
import ComponentPack.Proofs.Text.Bytewise

/-!
The scanner over byte offsets. A scanner that keeps no text but places in the source cuts the source
and its copy in lower case wherever it looks further, and it reads opening tags byte by byte. Each
cut is checked here, and so is each round of a loop: a cut inside of a character or behind the end,
a place that does not move on and a depth that falls below zero are faults. No source leads to one,
and the blocks are those of the scanner over texts.
-/

set_option autoImplicit false

namespace ComponentPack

open List Option

variable {c : Char} {quote : Option Char}

namespace Text

/-- The text from a byte offset on, if the offset is a character boundary. -/
def from? : Text → Nat → Option Text
  | text, 0 => some text
  | [], _ + 1 => none
  | c :: text, i + 1 => if c.utf8Size ≤ i + 1 then from? text (i + 1 - c.utf8Size) else none

/-- The text between two byte offsets, if both are character boundaries. -/
def slice? (text : Text) (i j : Nat) : Option Text := do
  let rest ← from? text i
  let after ← from? text j
  if i ≤ j then some (rest.take (rest.length - after.length)) else none

theorem from?_append (front rest : Text) : from? (front ++ rest) (byteSize front) = some rest := by
  induction front with
  | nil => rw [nil_append, byteSize, from?]
  | cons c front ih =>
    obtain ⟨size, spends⟩ := Nat.exists_eq_add_one_of_ne_zero c.utf8Size_pos.ne'
    have whole : byteSize (c :: front) = size + byteSize front + 1 := by
      rw [byteSize, spends]
      omega
    rw [cons_append, whole, from?, spends, if_pos (by omega), Nat.add_right_comm,
      Nat.add_sub_cancel_left, ih]

theorem from?_eq_some_iff {source rest : Text} {i : Nat} :
    from? source i = some rest ↔ ∃ front, source = front ++ rest ∧ byteSize front = i := by
  constructor
  · intro here
    fun_induction from? source i with
    | case1 text => exact ⟨[], Option.some.inj here, rfl⟩
    | case2 => simp at here
    | case3 c text i fits ih =>
      obtain ⟨front, rfl, size⟩ := ih here
      refine ⟨c :: front, rfl, ?_⟩
      rw [byteSize]
      omega
    | case4 => simp at here
  · rintro ⟨front, rfl, rfl⟩
    exact from?_append front rest

section Places

variable {source span rest : Text} {pos : Nat}

theorem from?_add (here : from? source pos = some (span ++ rest)) :
    from? source (pos + byteSize span) = some rest := by
  obtain ⟨front, rfl, rfl⟩ := from?_eq_some_iff.mp here
  exact from?_eq_some_iff.mpr ⟨front ++ span, by simp, byteSize_append front span⟩

theorem slice?_of_from? (here : from? source pos = some (span ++ rest)) :
    slice? source pos (pos + byteSize span) = some span := by
  simp [slice?, here, from?_add here]

theorem add_byteSize_of_from? (here : from? source pos = some rest) :
    pos + byteSize rest = byteSize source := by
  obtain ⟨front, rfl, rfl⟩ := from?_eq_some_iff.mp here
  exact (byteSize_append front rest).symm

/-- The copy in lower case has its characters at the same places. -/
theorem from?_lower (here : from? source pos = some rest) :
    from? (lower source) pos = some (lower rest) := by
  obtain ⟨front, rfl, rfl⟩ := from?_eq_some_iff.mp here
  exact from?_eq_some_iff.mpr ⟨lower front, Component.lower_append front rest, byteSize_lower front⟩

theorem from?_cons (here : from? source pos = some (c :: rest)) :
    from? source (pos + byteSize [c]) = some rest :=
  @from?_add source [c] rest pos here

theorem byteSize_pos (filled : span ≠ []) : 0 < byteSize span := by
  obtain ⟨c, rest, rfl⟩ := exists_cons_of_ne_nil filled
  have single := c.utf8Size_pos
  rw [byteSize]
  omega

end Places

end Text

namespace Component

open Text

namespace OpenTag

theorem isNameChar_wide (wide : 0x80 ≤ c.toNat) : isNameChar c = false := by
  have not_alpha : c.isAlpha = false := by
    by_contra letter
    have range := toNat_of_isAlpha (Bool.eq_true_of_not_eq_false letter)
    omega
  have not_digit : c.isDigit = false := by
    simp only [Char.isDigit, Bool.and_eq_false_iff, decide_eq_false_iff_not, ge_iff_le,
      UInt32.le_iff_toNat_le]
    right
    change ¬ c.toNat ≤ 57
    omega
  have not_dash : c ≠ '-' := ne_of_wide wide (by decide)
  simp [isNameChar, Char.isAlphanum, not_alpha, not_digit, not_dash]

theorem ascii_of_named {name : Text} (named : ∀ c ∈ name, isNameChar c = true) :
    ∀ c ∈ name, c.toNat < 0x80 := by
  intro c member
  by_contra wide
  have other := isNameChar_wide (Nat.le_of_not_lt wide)
  simp [named c member] at other

/-- Only ASCII characters open or close a quoted value or end the tag. -/
theorem attributes?_wide (ascii : ∀ q ∈ quote, q.toNat < 0x80) {run : Text}
    (wide : ∀ d ∈ run, 0x80 ≤ d.toNat) (rest : Text) :
    attributes? quote (run ++ rest) = (attributes? quote rest).map (Prod.map (run ++ ·) id) := by
  induction run with
  | nil => exact map_id'.symm
  | cons d run ih =>
    rw [forall_mem_cons] at wide
    have other {c : Char} (narrow : c.toNat < 0x80) : d ≠ c := ne_of_wide wide.1 narrow
    have same : quoteAfter quote d = quote := by
      cases quote with
      | none =>
        rw [quoteAfter, if_neg]
        exact not_or.mpr ⟨other (by decide), other (by decide)⟩
      | some q => rw [quoteAfter, if_neg (other (ascii q rfl))]
    rw [cons_append, attributes?_eq_ite, if_neg (fun ends => other (by decide) ends.2), same,
      ih wide.2, Option.map_map]
    rfl

theorem ascii_quoteAfter (ascii : ∀ q ∈ quote, q.toNat < 0x80) (c : Char) :
    ∀ q ∈ quoteAfter quote c, q.toNat < 0x80 := by
  intro q opened
  cases quote with
  | some p =>
    rw [quoteAfter] at opened
    split at opened
    · simp at opened
    · exact ascii q opened
  | none =>
    rw [quoteAfter] at opened
    split at opened
    · next isQuote =>
      obtain rfl : c = q := by simpa using opened
      rcases isQuote with rfl | rfl <;> decide
    · simp at opened

theorem attributes?_spread (ascii : ∀ q ∈ quote, q.toNat < 0x80) (text : Text) :
    attributes? quote (spread text) =
      (attributes? quote text).map (Prod.map spread spread) := by
  induction text generalizing quote with
  | nil =>
    rw [spread_nil]
    rfl
  | cons c text ih =>
    by_cases narrow : c.toNat < 0x80
    · rw [spread_cons_ascii narrow, attributes?_eq_ite, attributes?_eq_ite,
        ih (ascii_quoteAfter ascii c)]
      split
      · rfl
      · rw [Option.map_map, Option.map_map]
        refine congrArg (Option.map · _) (funext fun found => ?_)
        exact Prod.ext (spread_cons_ascii narrow found.1).symm rfl
    · have wide := Nat.le_of_not_lt narrow
      obtain ⟨first, others, spreads, -, outside⟩ := exists_spread_wide wide
      have single := attributes?_wide ascii (forall_mem_singleton.mpr wide) text
      rw [singleton_append] at single
      rw [spread_cons, attributes?_wide ascii (spreads ▸ outside), ih ascii, single,
        Option.map_map, Option.map_map]
      refine congrArg (Option.map · _) (funext fun found => ?_)
      exact Prod.ext (spread_cons c found.1).symm rfl

theorem getLast?_spread_eq_iff (ascii : c.toNat < 0x80) (text : Text) :
    (spread text).getLast? = some c ↔ text.getLast? = some c := by
  rcases eq_nil_or_concat text with rfl | ⟨front, d, rfl⟩
  · simp
  rw [concat_eq_append, spread_append, List.getLast?_concat]
  by_cases narrow : d.toNat < 0x80
  · rw [spread_ascii (forall_mem_singleton.mpr narrow), List.getLast?_concat]
  · have wide := Nat.le_of_not_lt narrow
    obtain ⟨first, others, spreads, -, outside⟩ := exists_spread_wide wide
    have filled : first :: others ≠ [] := cons_ne_nil _ _
    have last := outside _ (getLast_mem filled)
    rw [spreads, List.getLast?_append_of_ne_nil _ filled, List.getLast?_eq_some_getLast filled,
      Option.some.injEq, Option.some.injEq]
    exact iff_of_false (ne_of_wide last ascii) (ne_of_wide wide ascii)

theorem read?_spread (text : Text) :
    read? (spread text) = (read? text).map fun found =>
      (⟨found.1.name, spread found.1.written, found.1.selfClosing⟩,
        spread found.2) := by
  rcases exists_name text with named | ⟨name, c, rest, rfl, named, stop⟩
  · rw [spread_ascii (ascii_of_named named), read?_eq_none_of_named named]
    rfl
  have plain := spread_ascii (ascii_of_named named)
  rw [spread_append, plain, read?_name named stop]
  by_cases narrow : c.toNat < 0x80
  · rw [spread_cons_ascii narrow, read?_name named stop]
    split
    · rw [← spread_cons_ascii narrow, attributes?_spread (by simp), Option.map_map,
        Option.map_map]
      refine congrArg (Option.map · _) (funext fun found => ?_)
      have slash := getLast?_spread_eq_iff (show '/'.toNat < 0x80 by decide) found.1
      have ends := spread_ascii (forall_mem_singleton.mpr (show '>'.toNat < 0x80 by decide))
      simp [slash, spread_append, spread_cons_ascii (show '<'.toNat < 0x80 by decide),
        plain, ends]
    · rfl
  · have wide := Nat.le_of_not_lt narrow
    obtain ⟨first, others, spreads, -, outside⟩ := exists_spread_wide wide
    have unfollowed {d : Char} (wide : 0x80 ≤ d.toNat) :
        ¬ (isAsciiBlank d = true ∨ d = '>' ∨ d = '/') := by
      rintro (blank | ends | slash)
      · have narrow := of_isAsciiBlank (fun c => c.toNat < 0x80) (by decide) blank
        rw [decide_eq_true_eq] at narrow
        omega
      · exact ne_of_wide wide (by decide) ends
      · exact ne_of_wide wide (by decide) slash
    have beyond := outside first mem_cons_self
    rw [spread_cons, spreads, cons_append, read?_name named (isNameChar_wide beyond),
      if_neg fun starts => unfollowed beyond starts.2,
      if_neg fun starts => unfollowed wide starts.2]
    rfl

end OpenTag

namespace Offsets

/-- A loop over byte offsets. A round ends the loop or gives the next state and the place to go on
from; a round that does not move on, or that moves behind the limit, is a fault. -/
def run {σ ρ : Type} (limit : Nat) (step : σ → Nat → Option ((σ × Nat) ⊕ ρ)) (state : σ)
    (pos : Nat) : Option ρ :=
  match step state pos with
  | none => none
  | some (.inr result) => some result
  | some (.inl (state, next)) =>
    if _ : pos < next ∧ next ≤ limit then run limit step state next else none
termination_by limit - pos
decreasing_by
  next moves => exact Nat.sub_lt_sub_left (Nat.lt_of_lt_of_le moves.1 moves.2) moves.1

/-- The place of the first character of a kind, from an offset on. -/
def seek? (wanted : Char → Bool) (source : Text) (pos : Nat) : Option (Option Nat) :=
  (from? source pos).map fun rest =>
    if rest.any wanted then some (pos + byteSize (rest.takeWhile (!wanted ·))) else none

/-- The place just behind the comment that begins at an offset. -/
def comment? (source : Text) (start : Nat) : Option (Except SectionError Nat) :=
  (from? source (start + 4)).map fun rest =>
    match commentBody? rest with
    | none => .error (.unterminatedComment start)
    | some (inner, _) => .ok (start + 4 + byteSize inner + 3)

/-- An opening tag: its name in lower case and the place just behind it. -/
structure Opened where
  name : Text
  stop : Nat
  selfClosing : Bool

/-- The opening tag at an offset. It is sought in the bytes of the source; only its name is cut out
of the text. -/
def openTag? (source : Text) (start : Nat) : Option (Option Opened) :=
  let row := (spread source).drop (start + 1)
  match OpenTag.read? row with
  | none => some none
  | some (tag, _) =>
    let nameEnd := start + 1 + (row.takeWhile OpenTag.isNameChar).length
    (slice? source (start + 1) nameEnd).map fun name =>
      some ⟨lower name, start + tag.written.length, tag.selfClosing⟩

/-- The place just behind the close tag of the name that begins at an offset, if one does. -/
def closeTag? (source name : Text) (start : Nat) : Option (Option Nat) :=
  (from? (lower source) start).map fun rest =>
    (CloseTag.read? name rest).map fun found => start + byteSize found.1

/-- The place just behind the interpolation at an offset, or just behind its opening braces. -/
def interpolation? (source name : Text) (start : Nat) : Option Nat := do
  match cut? ['\x7d', '\x7d'] (← from? source (start + 2)) with
  | none => some (start + 2)
  | some (inner, _) =>
    let stop := start + 2 + byteSize inner
    if contains ('<' :: '/' :: name) (← slice? (lower source) (start + 2) stop) then
      some (start + 2)
    else some (stop + 2)

/-- A round of the search for the close tag of a raw element. -/
def rawStep (source name : Text) (_ : Unit) (pos : Nat) :
    Option ((Unit × Nat) ⊕ Option (Nat × Nat)) := do
  match cut? ('<' :: '/' :: name) (← from? (lower source) pos) with
  | none => some (.inr none)
  | some (before, _) =>
    let start := pos + byteSize before
    match ← closeTag? source name start with
    | some stop => some (.inr (some (start, stop)))
    | none => some (.inl ((), start + 1))

/-- What a round of the search for the close tag of a nesting element does at a `<`. -/
def angleStep (source name : Text) (depth start : Nat) :
    Option ((Nat × Nat) ⊕ Except SectionError (Nat × Nat)) := do
  if "<!--".toList.isPrefixOf (← from? source start) then
    match ← comment? source start with
    | .error e => some (.inr (.error e))
    | .ok next => some (.inl (depth, next))
  else
    match ← closeTag? source name start with
    | some stop =>
      match depth with
      | 0 => none
      | 1 => some (.inr (.ok (start, stop)))
      | depth + 2 => some (.inl (depth + 1, stop))
    | none =>
      match ← openTag? source start with
      | none => some (.inl (depth, start + 1))
      | some tag =>
        if contains ('<' :: '/' :: name)
            (← slice? (lower source) start tag.stop) then
          some (.inl (depth, start + 1))
        else if tag.name = name ∧ !tag.selfClosing then some (.inl (depth + 1, tag.stop))
        else some (.inl (depth, tag.stop))

/-- Tags, comments and interpolations begin with such a character. -/
def isMark (c : Char) : Bool := c == '<' || c == '\x7b'

/-- A round of the search for the close tag of a nesting element; `depth` elements of the name are
open, and `opening` is the place of the outermost one. -/
def nestedStep (source name : Text) (opening depth pos : Nat) :
    Option ((Nat × Nat) ⊕ Except SectionError (Nat × Nat)) := do
  match ← seek? isMark source pos with
  | none => some (.inr (.error (.unclosed name opening)))
  | some start =>
    let rest ← from? source start
    if ['\x7b'].isPrefixOf rest then
      if ['\x7b', '\x7b'].isPrefixOf rest then
        (interpolation? source name start).map fun next => .inl (depth, next)
      else some (.inl (depth, start + 1))
    else angleStep source name depth start

/-- The end of the content of the element that a tag opens, and the place just behind its close
tag. -/
def close? (source : Text) (tag : Opened) (opening : Nat) :
    Option (Except SectionError (Nat × Nat)) :=
  if (Section.ofTag? tag.name).any Section.isRaw then
    (run (byteSize source) (rawStep source tag.name) () tag.stop).map fun found =>
      found.elim (.error (.unclosed tag.name opening)) .ok
  else run (byteSize source) (nestedStep source tag.name opening) 1 tag.stop

def isAngle (c : Char) : Bool := c == '<'

/-- A round of the scanner, with the names and contents of the blocks so far. -/
def blockStep (source : Text) (blocks : List (Text × Text)) (pos : Nat) :
    Option ((List (Text × Text) × Nat) ⊕ Except SectionError (List (Text × Text))) := do
  match ← seek? isAngle source pos with
  | none => some (.inr (.ok blocks))
  | some start =>
    if "<!--".toList.isPrefixOf (← from? source start) then
      match ← comment? source start with
      | .error e => some (.inr (.error e))
      | .ok next => some (.inl (blocks, next))
    else
      match ← openTag? source start with
      | none => some (.inl (blocks, start + 1))
      | some tag =>
        if tag.selfClosing then some (.inl (blocks ++ [(tag.name, [])], tag.stop))
        else
          match ← close? source tag start with
          | .error e => some (.inr (.error e))
          | .ok (contentEnd, next) =>
            (slice? source tag.stop contentEnd).map fun content =>
              .inl (blocks ++ [(tag.name, content)], next)

/-- The names and contents of the blocks of a source; `none` is a fault. -/
def scan? (source : Text) : Option (Except SectionError (List (Text × Text))) :=
  run (byteSize source) (blockStep source) [] 0

section Loops

variable {σ ρ : Type} {limit pos next : Nat} {step : σ → Nat → Option ((σ × Nat) ⊕ ρ)}
  {state after : σ} {result : ρ}

theorem run_of_inr (ends : step state pos = some (.inr result)) :
    run limit step state pos = some result := by
  rw [run, ends]

theorem run_of_inl (goes : step state pos = some (.inl (after, next))) (moves : pos < next)
    (within : next ≤ limit) : run limit step state pos = run limit step after next := by
  conv_lhs => rw [run, goes]
  exact dif_pos ⟨moves, within⟩

/-- A loop may as well begin where its first round looks first. -/
theorem run_of_le (later : pos ≤ next) (same : step state pos = step state next)
    (done : run limit step state next = some result) :
    run limit step state pos = some result := by
  rw [run] at done ⊢
  rw [same]
  split at done
  · simp at done
  · exact done
  · split at done
    · next moves => rw [dif_pos ⟨by omega, moves.2⟩, done]
    · simp at done

end Loops

section Readers

variable {source rest : Text} {pos : Nat}

theorem contains_lower (name text : Text) :
    contains ('<' :: '/' :: name) (lower text) = CloseTag.beginsIn name text := by
  rw [CloseTag.beginsIn]

theorem seek?_nil (wanted : Char → Bool) (here : from? source pos = some []) :
    seek? wanted source pos = some none := by
  rw [seek?, here]
  rfl

theorem seek?_here {wanted : Char → Bool} (here : from? source pos = some (c :: rest))
    (found : wanted c = true) : seek? wanted source pos = some (some pos) := by
  rw [seek?, here]
  simp [found, byteSize]

theorem seek?_cons {wanted : Char → Bool} (here : from? source pos = some (c :: rest))
    (other : wanted c = false) :
    seek? wanted source pos = seek? wanted source (pos + byteSize [c]) := by
  rw [seek?, seek?, here, from?_cons here]
  simp [other, byteSize, Nat.add_assoc]

theorem not_isPrefixOf_comment (plain : ∀ body, rest ≠ '!' :: '-' :: '-' :: body) :
    ¬ "<!--".toList.isPrefixOf ('<' :: rest) = true := by
  rw [List.isPrefixOf_iff_prefix]
  rintro ⟨body, same⟩
  exact plain body (List.cons.inj same).2.symm

theorem comment?_eq {body : Text}
    (here : from? source pos = some ('<' :: '!' :: '-' :: '-' :: body)) :
    comment? source pos = some (match commentBody? body with
      | none => .error (.unterminatedComment pos)
      | some (inner, _) => .ok (pos + byteSize ("<!--" ++ inner ++ "-->"))) := by
  have behind := @from?_add source "<!--" body pos here
  rw [show byteSize "<!--" = 4 by decide] at behind
  rw [comment?, behind, Option.map_some]
  cases commentBody? body with
  | none => rfl
  | some parts =>
    simp only [byteSize_comment, Option.some.injEq, Except.ok.injEq]
    omega

theorem openTag?_eq (here : from? source pos = some ('<' :: rest)) :
    openTag? source pos = some ((OpenTag.read? rest).map fun found =>
      ⟨found.1.name, pos + byteSize found.1.written, found.1.selfClosing⟩) := by
  have row : (spread source).drop (pos + 1) = spread rest := by
    obtain ⟨front, rfl, rfl⟩ := from?_eq_some_iff.mp here
    rw [spread_append, spread_cons_ascii (by decide), ← length_spread, ← drop_drop,
      drop_left]
    rfl
  rw [openTag?, row, OpenTag.read?_spread]
  cases read : OpenTag.read? rest with
  | none => rfl
  | some found =>
    obtain ⟨tag, after⟩ := found
    obtain ⟨name, c, later, span, rfl, named, stop, -, -, -, rfl⟩ := OpenTag.of_read?_eq_some read
    have ascii := OpenTag.ascii_of_named named
    have first : (spread (name ++ c :: later)).takeWhile OpenTag.isNameChar = name := by
      rw [(takeWhile_spread (fun _ wide => OpenTag.isNameChar_wide wide) _).1,
        takeWhile_append_eq named (by simpa using stop), spread_ascii ascii]
    have size : name.length = byteSize name := by rw [← length_spread, spread_ascii ascii]
    have cut := slice?_of_from? (from?_cons here)
    rw [show byteSize ['<'] = 1 by decide] at cut
    simp only [Option.map_some, first, size, cut, length_spread]

theorem closeTag?_eq {text : Text} (name : Text) (here : from? source pos = some text) :
    closeTag? source name pos =
      some ((CloseTag.read? name text).map fun found => pos + byteSize found.1) := by
  rw [closeTag?, from?_lower here, Option.map_some, CloseTag.read?_lower, Option.map_map]
  refine congrArg (fun f => some (Option.map f _)) (funext fun found => ?_)
  exact congrArg (pos + ·) (byteSize_lower found.1)

theorem slice?_lower {span : Text} (here : from? source pos = some (span ++ rest)) :
    slice? (lower source) pos (pos + byteSize span) = some (lower span) := by
  have lowered := from?_lower here
  rw [lower_append] at lowered
  rw [← byteSize_lower span, slice?_of_from? lowered]

theorem interpolation?_eq {body : Text} (name : Text)
    (here : from? source pos = some ('\x7b' :: '\x7b' :: body)) :
    interpolation? source name pos =
      some (pos + byteSize (Piece.atBrace name ('\x7b' :: body)).1.span) := by
  have two : byteSize ['\x7b', '\x7b'] = 2 := by decide
  have two' : byteSize ['\x7d', '\x7d'] = 2 := by decide
  have behind := @from?_add source ['\x7b', '\x7b'] body pos here
  rw [two] at behind
  rw [interpolation?, behind, Piece.atBrace]
  cases cut : cut? ['\x7d', '\x7d'] body with
  | none => simp only [bind_eq_bind, bind_some, cut, Piece.span, two]
  | some parts =>
    obtain ⟨inner, after⟩ := parts
    obtain rfl := eq_append_of_cut? cut
    simp only [bind_eq_bind, bind_some, cut, slice?_lower behind, contains_lower]
    by_cases begins : CloseTag.beginsIn name inner = true
    · rw [if_pos begins, if_pos begins]
      simp only [Piece.span, two]
    · rw [if_neg begins, if_neg begins]
      simp only [Piece.span, byteSize_append, two, two', Nat.add_assoc]

end Readers

/-- The places where a content and its close tag end. -/
def ends (pos : Nat) (found : Text × Text × Text) : Nat × Nat :=
  (pos + byteSize found.1, pos + byteSize found.1 + byteSize found.2.1)

theorem ends_add (pos : Nat) (span : Text) (found : Text × Text × Text) :
    ends (pos + byteSize span) found = ends pos (span ++ found.1, found.2) := by
  simp only [ends, byteSize_append, Nat.add_assoc]

section Contents

variable {source text rest : Text} {pos : Nat} (name : Text)

theorem rawStep_cons (here : from? source pos = some (c :: rest))
    (absent : ¬ '<' :: '/' :: name <+: lower (c :: rest)) :
    rawStep source name () pos = rawStep source name () (pos + byteSize [c]) := by
  rw [lower_cons] at absent
  rw [rawStep, rawStep, from?_lower here, from?_lower (from?_cons here), lower_cons,
    bind_eq_bind, bind_some, bind_some, cut?_cons_of_absent absent]
  cases cut? ('<' :: '/' :: name) (lower rest) with
  | none => rfl
  | some found =>
    have size : pos + byteSize (c.toLower :: found.1) = pos + byteSize [c] + byteSize found.1 := by
      rw [byteSize, utf8Size_toLower, Nat.add_assoc]
      rfl
    simp only [Option.map_some, size]

theorem rawStep_here (here : from? source pos = some text)
    (begins : '<' :: '/' :: name <+: lower text) :
    rawStep source name () pos = some (match CloseTag.read? name text with
      | some found => .inr (some (pos, pos + byteSize found.1))
      | none => .inl ((), pos + 1)) := by
  obtain ⟨tail, spells⟩ := begins
  rw [rawStep, from?_lower here, ← spells, bind_eq_bind, bind_some,
    cut?_self_append]
  simp only [byteSize, Nat.add_zero, closeTag?_eq name here]
  cases CloseTag.read? name text <;> rfl

/-- The search for the close tag of a raw element finds the end of its content. -/
theorem run_rawStep (here : from? source pos = some text) :
    run (byteSize source) (rawStep source name) () pos =
      some ((Block.rawContent? name text).map (ends pos)) := by
  induction text generalizing pos with
  | nil =>
    refine run_of_inr ?_
    rw [rawStep, from?_lower here]
    rfl
  | cons c text ih =>
    have later := ih (from?_cons here)
    have sizes := add_byteSize_of_from? (from?_cons here)
    rw [show ends (pos + byteSize [c]) = fun found => ends pos (c :: found.1, found.2) from
      funext (ends_add pos [c])] at later
    rw [Block.rawContent?]
    by_cases begins : '<' :: '/' :: name <+: lower (c :: text)
    · have round := rawStep_here name here begins
      cases read : CloseTag.read? name (c :: text) with
      | some found =>
        rw [read] at round
        exact run_of_inr round
      | none =>
        rw [read] at round
        -- The close tag begins with `<`, which is one byte.
        obtain rfl : c = '<' :=
          (toLower_eq_iff (by decide)).mp (cons_prefix_cons.mp begins).1.symm
        rw [show byteSize ['<'] = 1 by decide] at later sizes
        rw [run_of_inl round (by omega) (by omega), later, Option.map_map]
        rfl
    · have unread : CloseTag.read? name (c :: text) = none := by
        rw [eq_none_iff_forall_ne_some]
        rintro ⟨span, after⟩ read
        obtain ⟨spelled, gap, rfl, -, rfl, spells⟩ := CloseTag.read?_eq_some_iff.mp read
        refine begins ⟨lower (gap ++ ['>'] ++ after), ?_⟩
        rw [spells]
        simp [lower]
      rw [unread, Option.map_map]
      exact run_of_le (Nat.le_add_right _ _) (rawStep_cons name here begins) later

/-- What a round of the search for the close tag of a nesting element does with a piece. -/
def outcome (depth pos : Nat) :
    Option (Piece × Text) → (Nat × Nat) ⊕ Except SectionError (Nat × Nat)
  | none => .inr (.error (.unterminatedComment pos))
  | some (piece, _) =>
    match piece.depthAfter? depth with
    | none => .inr (.ok (pos, pos + byteSize piece.span))
    | some next => .inl (next + 1, pos + byteSize piece.span)

theorem angleStep_eq (here : from? source pos = some ('<' :: rest)) (depth : Nat) :
    angleStep source name (depth + 1) pos =
      some (outcome depth pos (Piece.atAngle name rest)) := by
  simp only [angleStep, here, bind_eq_bind, bind_some]
  by_cases comment : ∃ body, rest = '!' :: '-' :: '-' :: body
  · obtain ⟨body, rfl⟩ := comment
    rw [if_pos (by simp), comment?_eq here, bind_some, Piece.atAngle]
    cases commentBody? body <;> rfl
  have plain : ∀ body, rest ≠ '!' :: '-' :: '-' :: body := fun body same => comment ⟨body, same⟩
  rw [if_neg (not_isPrefixOf_comment plain), closeTag?_eq name here, bind_some,
    Piece.atAngle]
  · cases CloseTag.read? name ('<' :: rest) with
    | some found => cases depth <;> rfl
    | none =>
      rw [openTag?_eq here]
      cases read : OpenTag.read? rest with
      | none => rfl
      | some found =>
        obtain ⟨tag, after⟩ := found
        have span := here
        rw [OpenTag.eq_append_of_read? read] at span
        simp only [map_none, Option.map_some, bind_some, slice?_lower span,
          contains_lower]
        by_cases begins : CloseTag.beginsIn name tag.written = true
        · rw [if_pos begins, if_pos begins]
          rfl
        · rw [if_neg begins, if_neg begins]
          split <;> rfl
  · exact plain

theorem nestedStep_here (here : from? source pos = some (c :: rest)) (mark : isMark c = true)
    (opening depth : Nat) :
    nestedStep source name opening (depth + 1) pos =
      some (outcome depth pos (Piece.read? name c rest)) := by
  simp only [nestedStep, seek?_here here mark, here, bind_eq_bind, bind_some]
  have marks : c = '<' ∨ c = '\x7b' := by simpa [isMark] using mark
  rcases marks with rfl | rfl
  · exact angleStep_eq name here depth
  · rw [if_pos (by simp), show Piece.read? name '\x7b' rest = some (Piece.atBrace name rest) from rfl]
    by_cases braces : ∃ body, rest = '\x7b' :: body
    · obtain ⟨body, rfl⟩ := braces
      have depths : (Piece.atBrace name ('\x7b' :: body)).1.depthAfter? depth = some depth := by
        rw [Piece.atBrace]
        split
        · split <;> rfl
        · rfl
      rw [if_pos (by simp), interpolation?_eq name here]
      simp only [outcome, depths, Option.map_some]
    · have single : ¬ ['\x7b', '\x7b'].isPrefixOf ('\x7b' :: rest) = true := by
        rw [List.isPrefixOf_iff_prefix]
        rintro ⟨body, same⟩
        exact braces ⟨body, (List.cons.inj same).2.symm⟩
      rw [if_neg single, Piece.atBrace]
      · rfl
      · exact fun body same => braces ⟨body, same⟩

theorem read?_of_unmarked (unmarked : isMark c = false) :
    Piece.read? name c rest = some (.plain [c], rest) := by
  rw [isMark, Bool.or_eq_false_iff, beq_eq_false_iff_ne, beq_eq_false_iff_ne] at unmarked
  rw [Piece.read?, if_neg unmarked.1, if_neg unmarked.2]

/-- A round that leaves the element open goes on behind its piece. -/
theorem run_nestedStep_of_deeper {piece : Piece} {after : Text} {opening depth next : Nat}
    {result : Except SectionError (Nat × Nat)} (here : from? source pos = some (c :: rest))
    (read : Piece.read? name c rest = some (piece, after))
    (deeper : piece.depthAfter? depth = some next)
    (later : run (byteSize source) (nestedStep source name opening) (next + 1)
      (pos + byteSize piece.span) = some result) :
    run (byteSize source) (nestedStep source name opening) (depth + 1) pos = some result := by
  cases mark : isMark c with
  | true =>
    have round := nestedStep_here name here mark opening depth
    obtain ⟨spans, filled⟩ := Piece.eq_append_of_read? read
    have moves := byteSize_pos filled
    have sizes := add_byteSize_of_from? here
    rw [spans, byteSize_append] at sizes
    simp only [read, outcome, deeper] at round
    rw [run_of_inl round (by omega) (by omega), later]
  | false =>
    rw [read?_of_unmarked name mark] at read
    cases read
    cases deeper
    refine run_of_le (Nat.le_add_right _ _) ?_ later
    rw [nestedStep, nestedStep, seek?_cons here mark]
    rfl

/-- The search for the close tag of a nesting element finds the end of its content. -/
theorem run_nestedStep (here : from? source pos = some text) (opening depth : Nat) :
    run (byteSize source) (nestedStep source name opening) (depth + 1) pos =
      some ((Block.nestedContent name opening depth pos text).map (ends pos)) := by
  fun_induction Block.nestedContent name opening depth pos text with
  | case1 depth pos =>
    refine run_of_inr ?_
    rw [nestedStep, seek?_nil isMark here]
    rfl
  | case2 depth pos c rest unread =>
    have mark : isMark c = true := by
      by_contra unmarked
      simp [read?_of_unmarked name (Bool.eq_false_of_not_eq_true unmarked)] at unread
    refine run_of_inr ?_
    rw [nestedStep_here name here mark, unread]
    rfl
  | case3 depth pos c rest piece after read _ closes =>
    have mark : isMark c = true := by
      by_contra unmarked
      rw [read?_of_unmarked name (Bool.eq_false_of_not_eq_true unmarked)] at read
      cases read
      simp [Piece.depthAfter?] at closes
    refine run_of_inr ?_
    simp only [nestedStep_here name here mark, read, outcome, closes]
    rfl
  | case4 depth pos c rest piece after read _ next deeper e failed ih =>
    have later := ih (from?_add ((Piece.eq_append_of_read? read).1 ▸ here))
    rw [failed] at later
    exact run_nestedStep_of_deeper name here read deeper later
  | case5 depth pos c rest piece after read _ next deeper content found done ih =>
    have later := ih (from?_add ((Piece.eq_append_of_read? read).1 ▸ here))
    rw [done] at later
    refine run_nestedStep_of_deeper name here read deeper (later.trans ?_)
    exact congrArg (fun pair => some (Except.ok pair)) (ends_add pos piece.span (content, found))

/-- The content of an element ends where it does for the scanner over texts. -/
theorem close?_eq (tag : OpenTag) (here : from? source pos = some text) (opening : Nat) :
    close? source ⟨tag.name, pos, tag.selfClosing⟩ opening =
      some ((Block.contentOf tag opening pos text).map (ends pos)) := by
  rw [close?, Block.contentOf]
  split
  · rw [run_rawStep tag.name here]
    cases Block.rawContent? tag.name text <;> rfl
  · exact run_nestedStep tag.name here opening 0

end Contents

/-- What the scanner over offsets keeps of a block. -/
def kept (block : Block) : Text × Text := (block.tag, block.content)

section Blocks

variable {source text span rest : Text} {pos : Nat} {block : Option Block}

theorem blockStep_angle (here : from? source pos = some ('<' :: rest))
    (plain : ∀ body, rest ≠ '!' :: '-' :: '-' :: body) (blocks : List (Text × Text)) :
    blockStep source blocks pos =
      match OpenTag.read? rest with
      | none => some (.inl (blocks, pos + 1))
      | some (tag, after) =>
        if tag.selfClosing then
          some (.inl (blocks ++ [(tag.name, [])], pos + byteSize tag.written))
        else
          match Block.contentOf tag pos (pos + byteSize tag.written) after with
          | .error e => some (.inr (.error e))
          | .ok (content, closing, _) => some (.inl (blocks ++ [(tag.name, content)],
              pos + byteSize tag.written + byteSize content + byteSize closing)) := by
  simp only [blockStep, seek?_here here (show isAngle '<' = true from rfl), here,
    bind_eq_bind, bind_some, if_neg (not_isPrefixOf_comment plain), openTag?_eq here]
  cases read : OpenTag.read? rest with
  | none => rfl
  | some found =>
    obtain ⟨tag, after⟩ := found
    have behind := from?_add (OpenTag.eq_append_of_read? read ▸ here)
    simp only [Option.map_some, close?_eq tag behind, bind_some]
    split
    · rfl
    · cases closed : Block.contentOf tag pos (pos + byteSize tag.written) after with
      | error e => rfl
      | ok parts =>
        rw [Block.eq_append_of_contentOf closed] at behind
        simp only [Except.map, ends, slice?_of_from? behind, Option.map_some]

theorem blockStep_of_takes (here : from? source pos = some ('<' :: text))
    (taken : Takes ('<' :: text) span block rest) (blocks : List (Text × Text)) :
    blockStep source blocks pos =
      some (.inl (blocks ++ (block.map kept).toList, pos + byteSize span)) := by
  cases taken with
  | char other => exact absurd rfl other
  | angle plain unopened =>
    rw [blockStep_angle here plain, unopened]
    simp [byteSize, show '<'.utf8Size = 1 by decide]
  | comment closed =>
    simp only [blockStep, seek?_here here (show isAngle '<' = true from rfl), here,
      bind_eq_bind, bind_some]
    rw [if_pos (by simp), comment?_eq here, closed]
    simp
  | empty opened alone =>
    rw [blockStep_angle here (OpenTag.not_comment_of_read? opened), opened]
    simp [alone, kept]
  | element opened alone closed =>
    have closed' := Block.contentOf_anywhere (OpenTag.isNameChar_of_read? opened) closed
    rw [blockStep_angle here (OpenTag.not_comment_of_read? opened), opened]
    simp [alone, closed', kept, byteSize_append, Nat.add_assoc]

theorem blockStep_of_fails {e : SectionError} (here : from? source pos = some text)
    (fails : Fails text e) (blocks : List (Text × Text)) :
    blockStep source blocks pos = some (.inr (.error (e.shift pos))) := by
  cases fails with
  | comment unclosed =>
    simp only [blockStep, seek?_here here (show isAngle '<' = true from rfl), here,
      bind_eq_bind, bind_some]
    rw [if_pos (by simp), comment?_eq here, unclosed]
    rfl
  | @element _ after tag _ opened alone unclosed =>
    have moved := Block.contentOf_shift tag pos 0 tag.written.byteSize after
    rw [unclosed, Nat.add_zero] at moved
    rw [blockStep_angle here (OpenTag.not_comment_of_read? opened), opened]
    simp [alone, moved, Except.mapError]

theorem run_blockStep {text : Text} {pos : Nat} (here : from? source pos = some text)
    (blocks : List (Text × Text)) :
    run (byteSize source) (blockStep source) blocks pos =
      some ((scanFrom pos text).map fun found => blocks ++ found.map kept) := by
  rcases scanFrom_cases text with rfl | ⟨span, block, rest, taken⟩ | ⟨e, fails⟩
  · have stops : blockStep source blocks pos = some (.inr (.ok blocks)) := by
      rw [blockStep, seek?_nil isAngle here]
      rfl
    rw [run_of_inr stops, scanFrom]
    simp [Except.map]
  · have shorter := taken.length_lt
    have whole := taken.eq_append
    have later := run_blockStep (from?_add (whole ▸ here)) (blocks ++ (block.map kept).toList)
    have result : (scanFrom (pos + byteSize span) rest).map (fun found =>
        blocks ++ (block.map kept).toList ++ found.map kept) =
        (scanFrom pos text).map fun found => blocks ++ found.map kept := by
      rw [scanFrom_of_takes taken]
      cases scanFrom (pos + byteSize span) rest with
      | error e => rfl
      | ok found => cases block <;> simp [Except.map, kept, Block.shift]
    rw [result] at later
    rcases text with _ | ⟨c, tail⟩
    · simp at shorter
    cases angle : isAngle c with
    | true =>
      obtain rfl : c = '<' := by simpa [isAngle] using angle
      have moves : 0 < byteSize span := by
        refine byteSize_pos fun empty => ?_
        rw [empty, nil_append] at whole
        simp [whole] at shorter
      have sizes := add_byteSize_of_from? here
      rw [whole, byteSize_append] at sizes
      rw [run_of_inl (blockStep_of_takes here taken blocks) (by omega) (by omega), later]
    | false =>
      cases taken with
      | char other =>
        refine run_of_le (Nat.le_add_right _ _) ?_ (by simpa using later)
        rw [blockStep, blockStep, seek?_cons here angle]
      | angle | comment | empty | element => simp [isAngle] at angle
  · rw [run_of_inr (blockStep_of_fails here fails blocks), scanFrom_of_fails fails]
    rfl
termination_by text.length

end Blocks

/-- The scanner over byte offsets has no fault: whatever the source, each cut of the source and of
its copy in lower case is at a character boundary, no end comes before its beginning, each round of
a loop moves on, and a close tag is counted only where an element is open. It finds the blocks of
the scanner over texts. -/
theorem scan?_eq_some (source : Text) :
    scan? source = some ((scan source).map (List.map kept)) :=
  run_blockStep (from?_append [] source) []

end Offsets

end Component

end ComponentPack
