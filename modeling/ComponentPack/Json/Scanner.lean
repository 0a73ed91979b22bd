import ComponentPack.Json.Fault
import ComponentPack.Json.Value

/-!
The scalars of JSON: words, numbers and strings.

Each scanner takes the number of bytes already read and the rest of the text, and returns what it
has read with a shorter rest. A value that nobody asked for is skipped by the same grammar with
less care: its numbers may be out of range, its surrogates unpaired and its bytes no UTF-8.

A byte that is part of no character is written as any character of one byte, and its place is listed
as broken.
-/

namespace ComponentPack.Json.Scanner

/-- A place in a text: the number of bytes before it, and the text after it. -/
structure Cursor where
  offset : Nat
  rest : Text
deriving DecidableEq, Repr

namespace Cursor

def start (text : Text) : Cursor := ⟨0, text⟩

def isBlank (c : Char) : Bool := c == ' ' || c == '\n' || c == '\t' || c == '\r'

def skipBlanks (cursor : Cursor) : Cursor :=
  ⟨cursor.offset + (cursor.rest.takeWhile isBlank).length, cursor.rest.dropWhile isBlank⟩

end Cursor

inductive Care where
  | strict
  | lenient
deriving DecidableEq, Repr

def word : Text → Cursor → Except Fault Cursor
  | [], cursor => .ok cursor
  | _ :: _, ⟨offset, []⟩ => .error ⟨.endInValue, offset⟩
  | letter :: letters, ⟨offset, c :: rest⟩ =>
    if c = letter then word letters ⟨offset + 1, rest⟩ else .error ⟨.expectedWord, offset + 1⟩

def digitsOf (text : Text) : Text := text.takeWhile Char.isDigit

def digitValue (c : Char) : Nat := c.toNat - '0'.toNat

def maxSignificand : Nat := 2 ^ (64 : Nat) - 1

/-- Appends digits to a significand while it stays in range: the significand and how many digits
were left over. -/
def significand (start : Nat) : Text → Nat × Nat
  | [] => (start, 0)
  | c :: rest =>
    let next := start * 10 + digitValue c
    if maxSignificand < next then (start, rest.length + 1) else significand next rest

def maxExponent : Nat := 2 ^ (31 : Nat) - 1

/-- The value of exponent digits, or how many digits it takes to exceed the greatest exponent. -/
def exponentOf (start read : Nat) : Text → Except Nat Nat
  | [] => .ok start
  | c :: rest =>
    let next := start * 10 + digitValue c
    if maxExponent < next then .error (read + 1) else exponentOf next (read + 1) rest

structure NumberParts where
  whole : Text
  fraction : Option Text
  exponent : Option (Bool × Text)
deriving DecidableEq, Repr

def missingDigit (care : Care) (cursor : Cursor) : Fault :=
  match cursor.rest, care with
  | [], .strict => ⟨.endInValue, cursor.offset⟩
  | [], .lenient => ⟨.invalidNumber, cursor.offset⟩
  | _ :: _, _ => ⟨.invalidNumber, cursor.offset + 1⟩

/-- The digits before the point: no zero stands before another digit. -/
def wholePart (care : Care) (cursor : Cursor) : Except Fault (Text × Cursor) :=
  let digits := digitsOf cursor.rest
  match digits with
  | [] => .error (missingDigit care cursor)
  | first :: others =>
    if first = '0' ∧ !others.isEmpty then .error ⟨.invalidNumber, cursor.offset + 2⟩
    else .ok (digits, ⟨cursor.offset + digits.length, cursor.rest.dropWhile Char.isDigit⟩)

/-- The point and at least one digit after it, if there is a point. -/
def fractionPart (care : Care) (cursor : Cursor) : Except Fault (Option Text × Cursor) :=
  match cursor.rest with
  | '.' :: rest =>
    let digits := digitsOf rest
    if digits.isEmpty then .error (missingDigit care ⟨cursor.offset + 1, rest⟩)
    else .ok (some digits, ⟨cursor.offset + 1 + digits.length, rest.dropWhile Char.isDigit⟩)
  | _ => .ok (none, cursor)

def exponentSign (cursor : Cursor) : Bool × Cursor :=
  match cursor.rest with
  | '+' :: rest => (false, ⟨cursor.offset + 1, rest⟩)
  | '-' :: rest => (true, ⟨cursor.offset + 1, rest⟩)
  | _ => (false, cursor)

/-- The exponent mark, a sign and at least one digit, if there is a mark. -/
def exponentPart (care : Care) (cursor : Cursor) :
    Except Fault (Option (Bool × Text) × Cursor) :=
  match cursor.rest with
  | c :: rest =>
    if c = 'e' ∨ c = 'E' then
      let (negative, cursor) := exponentSign ⟨cursor.offset + 1, rest⟩
      let digits := digitsOf cursor.rest
      if digits.isEmpty then .error (missingDigit care cursor)
      else
        .ok (some (negative, digits),
          ⟨cursor.offset + digits.length, cursor.rest.dropWhile Char.isDigit⟩)
    else .ok (none, cursor)
  | [] => .ok (none, cursor)

/-- The integer of a number without point and exponent, if it fits in 64 bits. A negative zero is no
integer. -/
def integer? (negative : Bool) (value : Nat) : Option Int :=
  if !negative then some value
  else if 0 < value ∧ value ≤ 2 ^ (63 : Nat) then some (-value)
  else none

def numberParts (care : Care) (cursor : Cursor) : Except Fault (NumberParts × Cursor) :=
  match wholePart care cursor with
  | .error e => .error e
  | .ok (whole, cursor) =>
    match fractionPart care cursor with
    | .error e => .error e
    | .ok (fraction, cursor) =>
      match exponentPart care cursor with
      | .error e => .error e
      | .ok (exponent, cursor) => .ok (⟨whole, fraction, exponent⟩, cursor)

namespace NumberParts

/-- The significand and the decimal exponent of the digits on either side of the point. Digits that
do not fit into the significand are dropped. -/
def scaled (parts : NumberParts) : Nat × Int :=
  let (digits, dropped) := significand 0 parts.whole
  match parts.fraction with
  | none => (digits, dropped)
  | some fraction =>
    let (digits, unread) := significand digits fraction
    (digits, (dropped : Int) - ((fraction.length : Int) - unread))

/-- The float of a decimal; `offset` is the place after the number. -/
def float (negative : Bool) (offset digits : Nat) (exponent : Int) : Except Fault Number :=
  match Binary64.ofDecimal? negative digits exponent with
  | some x => .ok (.float x)
  | none => .error ⟨.numberOutOfRange, offset⟩

def value (negative : Bool) (offset : Nat) (parts : NumberParts) : Except Fault Number :=
  let (digits, scale) := parts.scaled
  match parts.exponent with
  | some (below, exponent) =>
    match exponentOf 0 0 exponent with
    | .ok e => float negative offset digits (if below then scale - e else scale + e)
    | .error read =>
      if digits = 0 ∨ below then .ok (.float (Binary64.zero negative))
      else .error ⟨.numberOutOfRange, offset - exponent.length + read⟩
  | none =>
    if parts.fraction.isNone ∧ scale = 0 then
      match integer? negative digits with
      | some i => .ok (.integer i)
      | none => float negative offset digits 0
    else float negative offset digits scale

end NumberParts

def number (care : Care) (negative : Bool) (cursor : Cursor) : Except Fault (Number × Cursor) :=
  match numberParts care cursor with
  | .error e => .error e
  | .ok (parts, cursor) =>
    match care with
    | .lenient => .ok (.integer 0, cursor)
    | .strict =>
      match parts.value negative cursor.offset with
      | .error e => .error e
      | .ok n => .ok (n, cursor)

def hexValue? (c : Char) : Option Nat :=
  if c.isDigit then some (c.toNat - '0'.toNat)
  else if 'a' ≤ c ∧ c ≤ 'f' then some (c.toNat - 'a'.toNat + 10)
  else if 'A' ≤ c ∧ c ≤ 'F' then some (c.toNat - 'A'.toNat + 10)
  else none

def hexValue4? (a b c d : Char) : Option Nat :=
  match hexValue? a, hexValue? b, hexValue? c, hexValue? d with
  | some a, some b, some c, some d => some (((a * 16 + b) * 16 + c) * 16 + d)
  | _, _, _, _ => none

/-- Reads the four digits of an escape. They are sought in the next four bytes. -/
def hexEscape (cursor : Cursor) : Except Fault (Nat × Cursor) :=
  match cursor.rest with
  | a :: b :: c :: d :: rest =>
    match hexValue4? a b c d with
    | some n => .ok (n, ⟨cursor.offset + 4, rest⟩)
    | none => .error ⟨.invalidEscape, cursor.offset + 4⟩
  | rest =>
    if rest.byteSize < 4 then .error ⟨.endInString, cursor.offset + rest.byteSize⟩
    else .error ⟨.invalidEscape, cursor.offset + 4⟩

/-- The first of two surrogates. -/
def isLeading (n : Nat) : Bool := 0xD800 ≤ n && n ≤ 0xDBFF

/-- The second of two surrogates. -/
def isTrailing (n : Nat) : Bool := 0xDC00 ≤ n && n ≤ 0xDFFF

def surrogatePair (leading trailing : Nat) : Char :=
  Char.ofNat ((leading - 0xD800) * 0x400 + (trailing - 0xDC00) + 0x10000)

/-- Reads the escape that must follow a leading surrogate. -/
def trailingSurrogate (leading : Nat) (cursor : Cursor) : Except Fault (Char × Cursor) :=
  match cursor.rest with
  | [] => .error ⟨.endInString, cursor.offset⟩
  | '\\' :: [] => .error ⟨.endInString, cursor.offset + 1⟩
  | '\\' :: 'u' :: rest =>
    match hexEscape ⟨cursor.offset + 2, rest⟩ with
    | .error e => .error e
    | .ok (n, cursor) =>
      if isTrailing n then .ok (surrogatePair leading n, cursor)
      else .error ⟨.loneSurrogate, cursor.offset⟩
  | '\\' :: _ :: _ => .error ⟨.endOfSurrogatePair, cursor.offset + 2⟩
  | _ :: _ => .error ⟨.endOfSurrogatePair, cursor.offset + 1⟩

def shortEscape? (c : Char) : Option Char :=
  match c with
  | '"' => some '"'
  | '\\' => some '\\'
  | '/' => some '/'
  | 'b' => some '\x08'
  | 'f' => some '\x0c'
  | 'n' => some '\n'
  | 'r' => some '\r'
  | 't' => some '\t'
  | _ => none

def escaped (care : Care) (cursor : Cursor) : Except Fault (Char × Cursor) :=
  match cursor.rest with
  | [] => .error ⟨.endInString, cursor.offset⟩
  | 'u' :: rest =>
    match hexEscape ⟨cursor.offset + 1, rest⟩, care with
    | .error e, _ => .error e
    | .ok (n, cursor), .lenient => .ok (Char.ofNat n, cursor)
    | .ok (n, cursor), .strict =>
      if isTrailing n then .error ⟨.loneSurrogate, cursor.offset⟩
      else if isLeading n then trailingSurrogate n cursor
      else .ok (Char.ofNat n, cursor)
  | c :: rest =>
    match shortEscape? c with
    | some d => .ok (d, ⟨cursor.offset + 1, rest⟩)
    | none => .error ⟨.invalidEscape, cursor.offset + 1⟩

/-- What is left after a value, if one is read, is an end of the text. -/
def StopsIn {α : Type} (text : Text) : Except Fault (α × Cursor) → Prop
  | .ok (_, after) => after.rest <:+ text
  | .error _ => True

theorem StopsIn.of_ok {α : Type} {text : Text} {result : Except Fault (α × Cursor)} {a : α}
    {after : Cursor} (stops : StopsIn text result) (read : result = .ok (a, after)) :
    after.rest <:+ text := by
  subst read
  exact stops

theorem stopsIn_hexEscape (cursor : Cursor) : StopsIn cursor.rest (hexEscape cursor) := by
  fun_cases hexEscape cursor with
  | case1 a b c d rest shape => exact ⟨[a, b, c, d], shape.symm⟩
  | _ => trivial

theorem stopsIn_trailingSurrogate (leading : Nat) (cursor : Cursor) :
    StopsIn cursor.rest.tail (trailingSurrogate leading cursor) := by
  fun_cases trailingSurrogate leading cursor with
  | case4 rest shape n next read =>
    rw [shape]
    exact ((stopsIn_hexEscape _).of_ok read).trans (List.suffix_cons _ _)
  | _ => trivial

theorem stopsIn_escaped (care : Care) (cursor : Cursor) :
    StopsIn cursor.rest.tail (escaped care cursor) := by
  fun_cases escaped care cursor with
  | case3 rest shape n next read | case6 rest shape n next read =>
    rw [shape]
    exact (stopsIn_hexEscape _).of_ok read
  | case5 rest shape n next read =>
    have first := (stopsIn_hexEscape _).of_ok read
    have second := stopsIn_trailingSurrogate n next
    rw [shape]
    cases later : trailingSurrogate n next with
    | error => trivial
    | ok => exact ((second.of_ok later).trans (List.tail_suffix _)).trans first
  | case7 c rest d known shape =>
    rw [shape]
    exact List.suffix_refl _
  | _ => trivial

/-- An escape is at least one character long. -/
theorem length_lt_of_escaped {care : Care} {cursor after : Cursor} {c : Char}
    (h : escaped care cursor = .ok (c, after)) : after.rest.length < cursor.rest.length := by
  have stops := ((stopsIn_escaped care cursor).of_ok h).length_le
  cases rest : cursor.rest with
  | nil => simp [escaped, rest] at h
  | cons d rest => simpa [rest, Nat.lt_succ_iff] using stops

/-- A character of a string, and whether it stands for a broken byte. -/
structure Letter where
  char : Char
  isBroken : Bool := false
deriving DecidableEq, Repr

def lettersFrom (care : Care) (broken : List Nat) (offset : Nat) (text : Text) :
    Except Fault (List Letter × Cursor) :=
  match text with
  | [] => .error ⟨.endInString, offset⟩
  | c :: rest =>
    if c = '"' then .ok ([], ⟨offset + 1, rest⟩)
    else if c = '\\' then
      match h : escaped care ⟨offset + 1, rest⟩ with
      | .error e => .error e
      | .ok (d, next) =>
        have : next.rest.length < rest.length := length_lt_of_escaped h
        match lettersFrom care broken next.offset next.rest with
        | .error e => .error e
        | .ok (letters, after) => .ok (⟨d, false⟩ :: letters, after)
    else if c.toNat < 0x20 then
      .error ⟨.controlCharacter, if care = .strict then offset + 1 else offset⟩
    else
      match lettersFrom care broken (offset + c.utf8Size) rest with
      | .error e => .error e
      | .ok (letters, after) => .ok (⟨c, broken.contains offset⟩ :: letters, after)
termination_by text.length
decreasing_by all_goals simp only [List.length_cons]; omega

/-- Reads a string after its opening quote. A wanted string is checked for broken bytes when all of
it has been read. The fault lies as far before the end of the string as the value has bytes from its
first broken one on, so that escapes, which are longer than what they stand for, shift it. -/
def stringFrom (care : Care) (broken : List Nat) (offset : Nat) (text : Text) :
    Except Fault (Text × Cursor) :=
  match lettersFrom care broken offset text with
  | .error e => .error e
  | .ok (letters, after) =>
    let unsound := letters.dropWhile fun letter => !letter.isBroken
    if care = .strict ∧ !unsound.isEmpty then
      .error ⟨.brokenText, after.offset - Text.byteSize (unsound.map (·.char))⟩
    else .ok (letters.map (·.char), after)

def scalar? (care : Care) (broken : List Nat) (c : Char) (offset : Nat) (rest : Text) :
    Option (Except Fault (Json × Cursor)) :=
  let after (result : Except Fault Cursor) (value : Json) : Except Fault (Json × Cursor) :=
    result.map fun cursor => (value, cursor)
  let next : Cursor := ⟨offset + 1, rest⟩
  if c = 'n' then some (after (word "ull" next) .null)
  else if c = 't' then some (after (word "rue" next) (.bool true))
  else if c = 'f' then some (after (word "alse" next) (.bool false))
  else if c = '-' then some ((number care true next).map fun (n, cursor) => (.number n, cursor))
  else if c.isDigit then
    some ((number care false ⟨offset, c :: rest⟩).map fun (n, cursor) => (.number n, cursor))
  else if c = '"' then
    some ((stringFrom care broken (offset + 1) rest).map fun (s, cursor) => (.string s, cursor))
  else none

/-! What a scalar leaves is an end of what followed its first character. -/

theorem suffix_of_word {letters : Text} {cursor after : Cursor}
    (read : word letters cursor = .ok after) : after.rest <:+ cursor.rest := by
  fun_induction word letters cursor with
  | case1 =>
    cases read
    exact List.suffix_refl _
  | case3 letters offset rest c ih => exact (ih read).trans (List.suffix_cons _ _)
  | case2 | case4 => simp at read

theorem stopsIn_wholePart (care : Care) (cursor : Cursor) :
    StopsIn (cursor.rest.dropWhile Char.isDigit) (wholePart care cursor) := by
  fun_cases wholePart care cursor with
  | case3 => exact List.suffix_refl _
  | _ => trivial

theorem stopsIn_fractionPart (care : Care) (cursor : Cursor) :
    StopsIn cursor.rest (fractionPart care cursor) := by
  fun_cases fractionPart care cursor with
  | case1 => trivial
  | case2 rest shape =>
    rw [shape]
    exact (List.dropWhile_suffix _).trans (List.suffix_cons _ _)
  | case3 => exact List.suffix_refl _

theorem suffix_exponentSign (cursor : Cursor) : (exponentSign cursor).2.rest <:+ cursor.rest := by
  fun_cases exponentSign cursor with
  | case1 rest shape | case2 rest shape =>
    rw [shape]
    exact List.suffix_cons _ _
  | case3 => exact List.suffix_refl _

theorem stopsIn_exponentPart (care : Care) (cursor : Cursor) :
    StopsIn cursor.rest (exponentPart care cursor) := by
  fun_cases exponentPart care cursor with
  | case1 => trivial
  | case2 c rest shape _ negative next signed =>
    have sign := suffix_exponentSign ⟨cursor.offset + 1, rest⟩
    rw [signed] at sign
    rw [shape]
    exact ((List.dropWhile_suffix _).trans sign).trans (List.suffix_cons c rest)
  | case3 | case4 => exact List.suffix_refl _

theorem stopsIn_numberParts (care : Care) (cursor : Cursor) :
    StopsIn (cursor.rest.dropWhile Char.isDigit) (numberParts care cursor) := by
  fun_cases numberParts care cursor with
  | case4 _ _ whole _ _ fraction _ _ exponent =>
    exact (((stopsIn_exponentPart _ _).of_ok exponent).trans
      ((stopsIn_fractionPart _ _).of_ok fraction)).trans ((stopsIn_wholePart _ _).of_ok whole)
  | _ => trivial

theorem stopsIn_number (care : Care) (negative : Bool) (cursor : Cursor) :
    StopsIn (cursor.rest.dropWhile Char.isDigit) (number care negative cursor) := by
  fun_cases number care negative cursor with
  | case2 _ _ parts | case4 _ _ _ _ parts => exact (stopsIn_numberParts _ _).of_ok parts
  | _ => trivial

theorem stopsIn_lettersFrom (care : Care) (broken : List Nat) (offset : Nat) (text : Text) :
    StopsIn text (lettersFrom care broken offset text) := by
  fun_induction lettersFrom care broken offset text with
  | case2 => exact List.suffix_cons _ _
  | case5 offset rest d next escape _ letters after read _ ih =>
    have first := ((stopsIn_escaped _ _).of_ok escape).trans (List.tail_suffix rest)
    exact ((ih.of_ok read).trans first).trans (List.suffix_cons _ _)
  | case8 offset c rest _ _ _ letters after read ih =>
    exact (ih.of_ok read).trans (List.suffix_cons c rest)
  | _ => trivial

theorem stopsIn_stringFrom (care : Care) (broken : List Nat) (offset : Nat) (text : Text) :
    StopsIn text (stringFrom care broken offset text) := by
  fun_cases stringFrom care broken offset text with
  | case3 letters after read => exact (stopsIn_lettersFrom _ _ _ _).of_ok read
  | _ => trivial

theorem StopsIn.trans {α : Type} {text whole : Text} {result : Except Fault (α × Cursor)}
    (stops : StopsIn text result) (ends : text <:+ whole) : StopsIn whole result := by
  cases result with
  | ok => exact List.IsSuffix.trans stops ends
  | error => trivial

theorem StopsIn.map {α β : Type} {text : Text} {result : Except Fault (α × Cursor)} (f : α → β)
    (stops : StopsIn text result) :
    StopsIn text (result.map fun (a, cursor) => (f a, cursor)) := by
  cases result with
  | ok => exact stops
  | error => trivial

theorem stopsIn_word (value : Json) (letters : Text) (cursor : Cursor) :
    StopsIn cursor.rest ((word letters cursor).map fun cursor => (value, cursor)) := by
  cases read : word letters cursor with
  | ok => exact suffix_of_word read
  | error => trivial

theorem stopsIn_scalar? {care : Care} {broken : List Nat} {c : Char} {offset : Nat} {rest : Text}
    {result : Except Fault (Json × Cursor)}
    (found : scalar? care broken c offset rest = some result) : StopsIn rest result := by
  revert found
  fun_cases scalar? care broken c offset rest with
  | case1 | case2 | case3 =>
    rintro ⟨⟩
    exact stopsIn_word _ _ _
  | case4 =>
    rintro ⟨⟩
    exact ((stopsIn_number _ _ _).trans (List.dropWhile_suffix _)).map _
  | case5 _ _ _ _ digit =>
    rintro ⟨⟩
    have stops := stopsIn_number care false ⟨offset, c :: rest⟩
    rw [List.dropWhile_cons_of_pos digit] at stops
    exact (stops.trans (List.dropWhile_suffix _)).map _
  | case6 =>
    rintro ⟨⟩
    exact (stopsIn_stringFrom _ _ _ _).map _
  | case7 => simp

end ComponentPack.Json.Scanner
