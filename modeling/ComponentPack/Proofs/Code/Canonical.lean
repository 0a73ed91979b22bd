import Mathlib
import ComponentPack.Proofs.Code.Rewriting
import ComponentPack.Proofs.Text.Bytes

/-!
Fragments and the bytes of their code. Cutting code loses nothing and has one form: no text is empty
and no two texts are neighbours. Every substitution point lies at an offset of the code where its
bytes are all of a word, and what is rendered is the code with just these bytes exchanged.
-/

set_option autoImplicit false

namespace ComponentPack

open List Text

namespace Code

open Lexeme (isWordChar IsPoint)

/-- The bytes of words: ASCII letters and digits, the underscore and the dollar sign. -/
def isWordByte (byte : UInt8) : Bool :=
  (0x30 ≤ byte && byte ≤ 0x39) || (0x41 ≤ byte && byte ≤ 0x5A) || (0x61 ≤ byte && byte ≤ 0x7A) ||
    byte == 0x5F || byte == 0x24

theorem isWordByte_ofNat : ∀ n < 0x80, isWordByte (UInt8.ofNat n) = isWordChar (Char.ofNat n) := by
  decide

theorem isWordByte_eq_false {byte : UInt8} (high : 0x80 ≤ byte.toNat) :
    isWordByte byte = false := by
  by_contra inside
  simp only [Bool.not_eq_false, isWordByte, Bool.or_eq_true, Bool.and_eq_true, decide_eq_true_eq,
    beq_iff_eq, UInt8.le_iff_toNat_le, ← UInt8.toNat_inj, UInt8.reduceToNat] at inside
  omega

/-- A character is a character of words if any of its bytes is a byte of words. -/
theorem isWordByte_of_mem {c : Char} {byte : UInt8} (member : byte ∈ String.utf8EncodeChar c) :
    isWordByte byte = isWordChar c := by
  by_cases ascii : c.toNat < 0x80
  · rw [utf8EncodeChar_ascii ascii, mem_singleton] at member
    rw [member, isWordByte_ofNat c.toNat ascii, Char.ofNat_toNat]
  · have outside : isWordChar c = false := by
      by_contra inside
      have range := Lexeme.toNat_of_isWordChar (Bool.not_eq_false _ ▸ inside)
      omega
    rw [outside]
    exact isWordByte_eq_false (le_of_mem_utf8EncodeChar (Nat.le_of_not_lt ascii) member)

namespace Lexeme

variable {before code rest name : Text}

/-- No word goes on from the code before, which is given backwards, to the code after. -/
def Parted (before code : Text) : Prop :=
  ∀ c ∈ before.head?, ∀ d ∈ code.head?, isWordChar c = true → isWordChar d = false

theorem Parted.of_stops (stops : ∀ d ∈ code.head?, isWordChar d = false) : Parted before code :=
  fun _ _ d first _ => stops d first

theorem Parted.of_last {c : Char} {text : Text} (last : text.getLast? = some c)
    (outside : isWordChar c = false) : Parted (text.reverse ++ before) code := by
  intro d ends e _ inside
  obtain ⟨front, rfl⟩ := getLast?_eq_some_iff.mp last
  rw [reverse_append, reverse_singleton, singleton_append] at ends
  cases ends
  rw [outside] at inside
  exact Bool.noConfusion inside

/-- Every lexeme ends where no word goes on. -/
theorem Reads.parted {lexeme : Lexeme} (reads : Reads before lexeme rest) :
    Parted (lexeme.text.reverse ++ before) rest := by
  cases reads with
  | @literal quote body opens closed rest =>
    have outside : isWordChar quote = false := by
      simpa using of_isQuote (!isWordChar ·) (by decide) opens
    exact .of_last (getLast?_eq_some_iff.mpr ⟨quote :: body, rfl⟩) outside
  | openLiteral | openBlock => exact .of_stops (by simp)
  | line inside stops =>
    refine .of_stops fun d first => ?_
    rw [stops d first]
    decide
  | @block body closed rest =>
    have last : Lexeme.text (.comment ('/' :: '*' :: (body ++ ['*', '/']))) =
        '/' :: '*' :: (body ++ ['*']) ++ ['/'] := by simp [text]
    exact .of_last (getLast?_eq_some_iff.mpr ⟨_, last⟩) (by decide)
  | regex expected closed block chars stops => exact .of_stops stops
  | slash => exact .of_last (getLast?_singleton) (by decide)
  | number begins chars stops => exact .of_stops stops
  | word begins chars stops form => exact .of_stops stops
  | symbol inert slash outside rest => exact .of_last rfl outside

theorem Reads.namesProperty_eq_false (reads : Reads before (.identifier name) rest) :
    namesProperty before = false := by
  cases reads with
  | word begins chars stops form =>
    rw [ofWord] at form
    split at form
    · next point => simpa using point.2.2
    · exact Lexeme.noConfusion form

/-- A word that names no property after a dot follows three of them. -/
theorem spread_of_namesProperty (free : namesProperty before.reverse = false)
    (dot : before.getLast? = some '.') : ['.', '.', '.'] <:+ before := by
  obtain ⟨front, rfl⟩ := getLast?_eq_some_iff.mp dot
  rw [reverse_append, reverse_singleton, singleton_append] at free
  rw [namesProperty.eq_def] at free
  split at free
  · next rest same =>
    refine ⟨rest.reverse, ?_⟩
    have front := congrArg List.reverse same
    simpa using front.symm
  · exact Bool.noConfusion free
  · next other => exact absurd rfl (other _)

/-- A substitution point between the code before it and the code after it: all of a word, and no
property. -/
structure Free (before name after : Text) : Prop where
  point : IsPoint name
  starts : ∀ c ∈ before.getLast?, isWordChar c = false
  stops : ∀ c ∈ after.head?, isWordChar c = false
  spread : before.getLast? = some '.' → ['.', '.', '.'] <:+ before

theorem Reads.free (reads : Reads before (.identifier name) rest)
    (parted : Parted before (name ++ rest)) : Free before.reverse name rest := by
  obtain ⟨point, stops⟩ := reads.isPoint
  refine ⟨point, fun c last => ?_, stops, spread_of_namesProperty ?_⟩
  · obtain ⟨others, rfl, -, -⟩ := point
    rw [getLast?_reverse] at last
    by_contra inside
    have outside := parted c last '_' rfl (Bool.not_eq_false _ ▸ inside)
    exact absurd outside (by decide)
  · rw [reverse_reverse]
    exact reads.namesProperty_eq_false

/-- All substitution points that are scanned are free. -/
theorem free_of_scanFrom (parted : Parted before code) {front back : List Lexeme}
    (cut : scanFrom before code = front ++ .identifier name :: back) :
    Free (before.reverse ++ front.flatMap text) name (back.flatMap text) := by
  induction before, code using scan_induction generalizing front with
  | nil before => exact absurd cut (by simp [scanFrom])
  | step before lexeme rest reads ih =>
    rw [reads.scanFrom_eq] at cut
    cases front with
    | nil =>
      obtain ⟨rfl, rfl⟩ := List.cons.inj cut
      rw [flatMap_text_scanFrom, flatMap_nil, append_nil]
      exact reads.free parted
    | cons first front =>
      obtain ⟨rfl, later⟩ := List.cons.inj cut
      have free := ih reads.parted later
      rwa [reverse_append, reverse_reverse, append_assoc] at free

theorem text_ne_nil_of_mem_scanFrom {before code : Text} {lexeme : Lexeme}
    (member : lexeme ∈ scanFrom before code) : lexeme.text ≠ [] := by
  induction before, code using scan_induction with
  | nil before => exact absurd member (by simp [scanFrom])
  | step before first rest reads ih =>
    rw [reads.scanFrom_eq] at member
    rcases mem_cons.mp member with rfl | member
    · exact reads.text_ne_nil
    · exact ih member

end Lexeme

namespace Segment

def text : Segment → Text
  | plain text => text
  | identifier name => name

/-- The code that segments were cut from. -/
def code (segments : List Segment) : Text := segments.flatMap text

theorem render_none (segment : Segment) : segment.render (fun _ => none) = segment.text := by
  cases segment <;> rfl

theorem code_ofLexemes (lexemes : List Lexeme) :
    code (ofLexemes lexemes) = lexemes.flatMap Lexeme.text := by
  have plain : render (fun _ => none) = text := funext render_none
  have whole : Lexeme.render (fun _ => none) = Lexeme.text := funext Lexeme.render_none
  have joined := flatMap_ofLexemes (fun _ => none) lexemes
  rwa [plain, whole] at joined

/-- A substitution point among segments is one among the lexemes. -/
theorem exists_of_ofLexemes {lexemes : List Lexeme} {front back : List Segment} {name : Text}
    (cut : ofLexemes lexemes = front ++ .identifier name :: back) :
    ∃ before after, lexemes = before ++ .identifier name :: after ∧
      before.flatMap Lexeme.text = code front ∧ ofLexemes after = back := by
  induction lexemes generalizing front with
  | nil => exact absurd cut (by simp [ofLexemes])
  | cons lexeme lexemes ih =>
    cases point : lexeme.identifier? with
    | some found =>
      obtain rfl := Lexeme.eq_of_identifier? point
      rw [ofLexemes] at cut
      cases front with
      | nil =>
        obtain ⟨same, later⟩ := List.cons.inj cut
        cases same
        exact ⟨[], lexemes, rfl, rfl, later⟩
      | cons segment front =>
        obtain ⟨rfl, later⟩ := List.cons.inj cut
        obtain ⟨before, after, rfl, texts, rest⟩ := ih later
        refine ⟨.identifier found :: before, after, rfl, ?_, rest⟩
        rw [flatMap_cons, texts]
        rfl
    | none =>
      rcases ofLexemes_cons_plain point lexemes with
        ⟨joint, segments, following, joined⟩ | ⟨-, apart⟩
      · rw [joined] at cut
        cases front with
        | nil => exact absurd (List.cons.inj cut).1 (by simp)
        | cons segment front =>
          obtain ⟨rfl, later⟩ := List.cons.inj cut
          obtain ⟨before, after, rfl, texts, rest⟩ :=
            @ih (.plain joint :: front) (following.trans (by rw [later]; rfl))
          refine ⟨lexeme :: before, after, rfl, ?_, rest⟩
          rw [flatMap_cons, texts]
          simp [code, text]
      · rw [apart] at cut
        cases front with
        | nil => exact absurd (List.cons.inj cut).1 (by simp)
        | cons segment front =>
          obtain ⟨rfl, later⟩ := List.cons.inj cut
          obtain ⟨before, after, rfl, texts, rest⟩ := ih later
          refine ⟨lexeme :: before, after, rfl, ?_, rest⟩
          rw [flatMap_cons, texts]
          rfl

/-- Of two neighbours one is a substitution point. -/
def Apart (a b : Segment) : Prop := a.identifier? ≠ none ∨ b.identifier? ≠ none

theorem canonical_ofLexemes {lexemes : List Lexeme}
    (filled : ∀ lexeme ∈ lexemes, lexeme.text ≠ []) :
    (∀ text, .plain text ∈ ofLexemes lexemes → text ≠ []) ∧ (ofLexemes lexemes).IsChain Apart := by
  induction lexemes with
  | nil => exact ⟨by simp [ofLexemes], .nil⟩
  | cons lexeme lexemes ih =>
    obtain ⟨first, others⟩ := forall_mem_cons.mp filled
    obtain ⟨nonempty, chain⟩ := ih others
    cases point : lexeme.identifier? with
    | some found =>
      obtain rfl := Lexeme.eq_of_identifier? point
      rw [ofLexemes]
      refine ⟨fun text member => ?_, isChain_cons.mpr ⟨fun next _ => ?_, chain⟩⟩
      · rcases mem_cons.mp member with same | member
        · exact Segment.noConfusion same
        · exact nonempty text member
      · exact .inl (by simp [identifier?])
    | none =>
      rcases ofLexemes_cons_plain point lexemes with
        ⟨joint, segments, following, joined⟩ | ⟨parted, apart⟩
      · rw [following] at nonempty chain
        rw [joined]
        refine ⟨fun text member => ?_, isChain_cons.mpr ⟨fun next listed => ?_, ?_⟩⟩
        · rcases mem_cons.mp member with same | member
          · cases same
            exact fun empty => first (append_eq_nil_iff.mp empty).1
          · exact nonempty text (mem_cons_of_mem _ member)
        · have apart := (isChain_cons.mp chain).1 next listed
          exact apart.imp_left fun point => absurd rfl point
        · exact (isChain_cons.mp chain).2
      · rw [apart]
        refine ⟨fun text member => ?_, isChain_cons.mpr ⟨fun next listed => ?_, chain⟩⟩
        · rcases mem_cons.mp member with same | member
          · cases same
            exact first
          · exact nonempty text member
        · exact .inr (parted next listed)

end Segment

theorem Fragment.code_parse (code : Text) : Segment.code (parse code).segments = code := by
  rw [parse, Segment.code_ofLexemes]
  exact Lexeme.flatMap_text_scanFrom [] code

/-- All substitution points of a fragment are free. -/
theorem Fragment.free_of_parse {code : Text} {front back : List Segment} {name : Text}
    (cut : (parse code).segments = front ++ .identifier name :: back) :
    Lexeme.Free (Segment.code front) name (Segment.code back) := by
  obtain ⟨before, after, scanned, texts, rest⟩ := Segment.exists_of_ofLexemes cut
  have parted : Lexeme.Parted [] code := by simp [Lexeme.Parted]
  have free := Lexeme.free_of_scanFrom parted scanned
  rwa [reverse_nil, nil_append, texts, ← Segment.code_ofLexemes, rest] at free

/-- A substitution point and the offset of its first byte. -/
structure Point where
  start : Nat
  name : Text
deriving DecidableEq, Repr

/-- The substitution points of segments, the first of which begins at an offset. -/
def pointsFrom (offset : Nat) : List Segment → List Point
  | [] => []
  | .plain text :: segments => pointsFrom (offset + byteSize text) segments
  | .identifier name :: segments =>
    ⟨offset, name⟩ :: pointsFrom (offset + byteSize name) segments

/-- The substitution points of a fragment. -/
def Fragment.points (fragment : Fragment) : List Point := pointsFrom 0 fragment.segments

theorem map_name_pointsFrom (offset : Nat) (segments : List Segment) :
    (pointsFrom offset segments).map Point.name = segments.filterMap Segment.identifier? := by
  induction segments generalizing offset with
  | nil => rfl
  | cons segment segments ih =>
    cases segment with
    | plain text => exact ih _
    | identifier name => exact congrArg (name :: ·) (ih _)

theorem exists_of_mem_pointsFrom {offset : Nat} {segments : List Segment} {point : Point}
    (member : point ∈ pointsFrom offset segments) :
    ∃ front back, segments = front ++ .identifier point.name :: back ∧
      point.start = offset + byteSize (Segment.code front) := by
  induction segments generalizing offset with
  | nil => exact absurd member (by simp [pointsFrom])
  | cons segment segments ih =>
    have later (size : Nat) (sized : size = byteSize segment.text)
        (inside : point ∈ pointsFrom (offset + size) segments) :
        ∃ front back, segment :: segments = front ++ .identifier point.name :: back ∧
          point.start = offset + byteSize (Segment.code front) := by
      obtain ⟨front, back, rfl, start⟩ := ih inside
      refine ⟨segment :: front, back, rfl, ?_⟩
      have total : byteSize (Segment.code (segment :: front)) =
          size + byteSize (Segment.code front) := by
        rw [sized, ← byteSize_append]
        rfl
      omega
    cases segment with
    | plain text => exact later _ rfl member
    | identifier name =>
      rcases mem_cons.mp member with rfl | member
      · exact ⟨[], segments, rfl, rfl⟩
      · exact later _ rfl member

/-- A word that begins with an underscore lies at an offset of a row of bytes: it is all of a run of
bytes of words, and no dot stands before it unless it is the last of three. -/
structure WordAt (row : List UInt8) (start : Nat) (word : List UInt8) : Prop where
  here : (row.drop start).take word.length = word
  mark : word.head? = some 0x5F
  more : 1 < word.length
  chars : ∀ byte ∈ word, isWordByte byte = true
  before : ∀ byte ∈ (row.take start).getLast?, isWordByte byte = false
  after : ∀ byte ∈ (row.drop (start + word.length)).head?, isWordByte byte = false
  spread : (row.take start).getLast? = some 0x2E → [0x2E, 0x2E, 0x2E] <:+ row.take start

theorem Lexeme.Free.wordAt {before name after : Text} (free : Lexeme.Free before name after) :
    WordAt (bytes (before ++ (name ++ after))) (byteSize before) (bytes name) := by
  have row : bytes (before ++ (name ++ after)) =
      bytes before ++ (bytes name ++ bytes after) := by
    rw [bytes_append, bytes_append]
  have front : (bytes (before ++ (name ++ after))).take (byteSize before) =
      bytes before := by
    rw [row, ← length_bytes, take_left]
  have back : (bytes (before ++ (name ++ after))).drop (byteSize before) =
      bytes name ++ bytes after := by
    rw [row, ← length_bytes, drop_left]
  have edge {c : Char} {byte : UInt8} (outside : isWordChar c = false)
      (part : byte ∈ String.utf8EncodeChar c) : isWordByte byte = false := by
    rw [isWordByte_of_mem part, outside]
  obtain ⟨others, rfl, filled, chars⟩ := free.point
  refine ⟨?_, ?_, ?_, ?_, ?_, ?_, ?_⟩
  · rw [back, take_left]
  · rw [bytes_eq_flatMap]
    rfl
  · obtain ⟨c, rest, rfl⟩ := exists_cons_of_ne_nil filled
    have wide := c.utf8Size_pos
    rw [length_bytes, byteSize, byteSize]
    have narrow : '_'.utf8Size = 1 := by decide
    omega
  · intro byte member
    rw [bytes_eq_flatMap] at member
    obtain ⟨c, inside, part⟩ := mem_flatMap.mp member
    rw [isWordByte_of_mem part]
    exact Lexeme.isWordChar_of_isPoint free.point c inside
  · intro byte last
    rw [front] at last
    obtain ⟨c, ends, part⟩ := exists_of_mem_getLast?_bytes last
    exact edge (free.starts c ends) part
  · intro byte first
    rw [← drop_drop, back, drop_left] at first
    obtain ⟨c, begins, part⟩ := exists_of_mem_head?_bytes first
    exact edge (free.stops c begins) part
  · intro dot
    rw [front] at dot ⊢
    obtain ⟨c, ends, part⟩ := exists_of_mem_getLast?_bytes dot
    obtain rfl : c = '.' := eq_of_mem_utf8EncodeChar (by decide) part
    obtain ⟨start, rfl⟩ := free.spread ends
    rw [bytes_append]
    exact suffix_append _ _

/-- So many bytes from an offset on, and what comes in their place. -/
structure Edit where
  start : Nat
  count : Nat
  bytes : List UInt8

/-- Carries out edits, given from left to right, in a row that begins at an offset. -/
def exchange (offset : Nat) (row : List UInt8) : List Edit → List UInt8
  | [] => row
  | edit :: edits =>
    row.take (edit.start - offset) ++ edit.bytes ++
      exchange (edit.start + edit.count) (row.drop (edit.start + edit.count - offset)) edits

/-- What a substitution does at a point. -/
def Point.edit (substitute : Text → Option Text) (point : Point) : Edit :=
  ⟨point.start, byteSize point.name, bytes ((substitute point.name).getD point.name)⟩

theorem exchange_append {offset : Nat} {front row : List UInt8} {edits : List Edit}
    (later : ∀ edit ∈ edits.head?, offset + front.length ≤ edit.start) :
    exchange offset (front ++ row) edits = front ++ exchange (offset + front.length) row edits := by
  cases edits with
  | nil => rfl
  | cons edit edits =>
    have start := later edit rfl
    have place : edit.start - offset = front.length + (edit.start - (offset + front.length)) := by
      omega
    have rest : edit.start + edit.count - offset =
        front.length + (edit.start + edit.count - (offset + front.length)) := by
      omega
    rw [exchange, exchange, place, rest, take_length_add_append, drop_length_add_append]
    simp

/-- What is rendered is the code with the bytes of its substitution points exchanged. -/
theorem bytes_flatMap_render (substitute : Text → Option Text) (offset : Nat)
    (segments : List Segment) :
    bytes (segments.flatMap (Segment.render substitute)) =
      exchange offset (bytes (Segment.code segments))
        ((pointsFrom offset segments).map (Point.edit substitute)) := by
  induction segments generalizing offset with
  | nil => rfl
  | cons segment segments ih =>
    have row : bytes (Segment.code (segment :: segments)) =
        bytes segment.text ++ bytes (Segment.code segments) :=
      bytes_append _ _
    rw [flatMap_cons, bytes_append, row]
    cases segment with
    | plain text =>
      rw [pointsFrom, exchange_append, ih, Segment.text, length_bytes]
      · rfl
      · intro edit first
        obtain ⟨point, inside, rfl⟩ := mem_map.mp (mem_of_mem_head? first)
        obtain ⟨_, _, -, start⟩ := exists_of_mem_pointsFrom inside
        rw [Segment.text, length_bytes]
        change _ ≤ point.start
        omega
    | identifier name =>
      have skipped : offset + byteSize name - offset = (bytes name).length := by
        rw [length_bytes]
        omega
      rw [pointsFrom, map_cons, exchange, ih (offset + byteSize name)]
      dsimp only [Point.edit, Segment.text]
      rw [Nat.sub_self, take_zero, nil_append, skipped, drop_left]
      rfl

/-- A backslash before a character of two bytes, a spread name with a property, and an open literal
that ends with a backslash. -/
def openEnded : Text := "'\\é' + _a(..._b._c) + \x60_d\\"

end Code

end ComponentPack
