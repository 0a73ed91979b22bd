import ComponentPack.Json.Scanner
import ComponentPack.Proofs.Text.Bytes

/-!
JSON as it is written. A document is a tree of scalars, arrays and objects; it is written as a row of
tokens with any blanks between them. Scalars keep their spelling, so that the tree tells everything
about a text but its blanks. What a spelling stands for may be nothing: a number may be out of range
and a surrogate may be alone.
-/

set_option autoImplicit false

namespace ComponentPack.Json

/-- A part of a string between its quotes. -/
inductive StringPart where
  /-- A character that stands for itself. -/
  | plain (c : Char) (quote : c ≠ '"') (slash : c ≠ '\\') (printable : ¬ c.toNat < 0x20)
  /-- A backslash and the letter of an escape. -/
  | short (c stands : Char) (known : Scanner.shortEscape? c = some stands)
  /-- A backslash, the letter `u` and four hexadecimal digits. -/
  | code (a b c d : Char) (unit : Nat) (known : Scanner.hexValue4? a b c d = some unit)

namespace StringPart

def text : StringPart → Text
  | plain c _ _ _ => [c]
  | short c _ _ => ['\\', c]
  | code a b c d _ _ => ['\\', 'u', a, b, c, d]

end StringPart

/-- A string as it is written between its quotes. -/
abbrev Spelling := List StringPart

namespace Spelling

def text (spelling : Spelling) : Text := spelling.flatMap StringPart.text

/-- What a string stands for. A leading surrogate must be followed by a trailing one, and no trailing
one stands alone. -/
def value? : Spelling → Option Text
  | [] => some []
  | .plain c _ _ _ :: rest => (value? rest).map (c :: ·)
  | .short _ stands _ :: rest => (value? rest).map (stands :: ·)
  | .code _ _ _ _ leading _ :: .code a b c d unit known :: rest =>
    if Scanner.isTrailing leading then none
    else if Scanner.isLeading leading then
      if Scanner.isTrailing unit then
        (value? rest).map (Scanner.surrogatePair leading unit :: ·)
      else none
    else (value? (.code a b c d unit known :: rest)).map (Char.ofNat leading :: ·)
  | .code _ _ _ _ unit _ :: rest =>
    if Scanner.isTrailing unit || Scanner.isLeading unit then none
    else (value? rest).map (Char.ofNat unit :: ·)

end Spelling

/-- At least one digit, and nothing else. -/
structure IsDigits (text : Text) : Prop where
  some : text ≠ []
  digits : ∀ c ∈ text, c.isDigit = true

/-- The exponent of a number. -/
structure Exponent where
  mark : Char
  isMark : mark = 'e' ∨ mark = 'E'
  sign : Text
  isSign : sign = [] ∨ sign = ['+'] ∨ sign = ['-']
  digits : Text
  isDigits : IsDigits digits

/-- A number as it is written. -/
structure Numeral where
  negative : Bool
  whole : Text
  isWhole : IsDigits whole
  /-- No zero stands before another digit. -/
  leading : whole.head? = some '0' → whole = ['0']
  fraction : Option Text
  isFraction : ∀ digits ∈ fraction, IsDigits digits
  exponent : Option Exponent

def Exponent.text (exponent : Exponent) : Text :=
  exponent.mark :: exponent.sign ++ exponent.digits

namespace Numeral

/-- The number without its sign. -/
def unsigned (numeral : Numeral) : Text :=
  numeral.whole ++ ((numeral.fraction.map ('.' :: ·)).getD [] ++
    (numeral.exponent.map Exponent.text).getD [])

def text (numeral : Numeral) : Text :=
  if numeral.negative then '-' :: numeral.unsigned else numeral.unsigned

/-- The parts of the number, without the way in which the exponent is written. -/
def parts (numeral : Numeral) : Scanner.NumberParts where
  whole := numeral.whole
  fraction := numeral.fraction
  exponent := numeral.exponent.map fun e => (decide (e.sign = ['-']), e.digits)

/-- What a number stands for, unless it is out of range. -/
def value? (numeral : Numeral) : Option Number :=
  (numeral.parts.value numeral.negative 0).toOption

end Numeral

inductive Scalar where
  | null
  | bool (value : Bool)
  | number (numeral : Numeral)
  | string (spelling : Spelling)

namespace Scalar

def text : Scalar → Text
  | null => "null"
  | bool true => "true"
  | bool false => "false"
  | number numeral => numeral.text
  | string spelling => '"' :: (spelling.text ++ ['"'])

def value? : Scalar → Option Json
  | null => some .null
  | bool value => some (.bool value)
  | number numeral => numeral.value?.map .number
  | string spelling => spelling.value?.map .string

end Scalar

/-- Brackets, braces and what stands between items. -/
inductive Mark where
  | openList
  | closeList
  | openObject
  | closeObject
  | comma
  | colon

def Mark.char : Mark → Char
  | openList => '['
  | closeList => ']'
  | openObject => '\x7b'
  | closeObject => '\x7d'
  | comma => ','
  | colon => ':'

inductive Token where
  | mark (mark : Mark)
  | scalar (scalar : Scalar)

namespace Token

def text : Token → Text
  | mark m => [m.char]
  | scalar s => s.text

def isMark : Token → Bool
  | mark _ => true
  | scalar _ => false

end Token

/-- Blanks between tokens. -/
def IsGap (text : Text) : Prop := ∀ c ∈ text, Scanner.Cursor.isBlank c = true

/-- A row of tokens with any blanks before each of them. -/
inductive Spread : List Token → Text → Prop
  | nil : Spread [] []
  | cons {gap text : Text} {tokens : List Token} (blank : IsGap gap) (token : Token)
    (rest : Spread tokens text) : Spread (token :: tokens) (gap ++ (token.text ++ text))

/-- A document as it is written, less its blanks. -/
inductive Source where
  | scalar (scalar : Scalar)
  | array (items : List Source)
  | object (members : List (Spelling × Source))

namespace Source

mutual

def tokens : Source → List Token
  | scalar s => [.scalar s]
  | array items =>
    .mark .openList :: (List.intercalate [.mark .comma] (itemTokens items) ++ [.mark .closeList])
  | object members =>
    .mark .openObject ::
      (List.intercalate [.mark .comma] (memberTokens members) ++ [.mark .closeObject])

def itemTokens : List Source → List (List Token)
  | [] => []
  | item :: items => tokens item :: itemTokens items

def memberTokens : List (Spelling × Source) → List (List Token)
  | [] => []
  | (key, value) :: members =>
    (.scalar (.string key) :: .mark .colon :: tokens value) :: memberTokens members

end

/-- A text with the tokens of a document. -/
def LaidOut (source : Source) (text : Text) : Prop :=
  ∃ front gap, Spread source.tokens front ∧ IsGap gap ∧ text = front ++ gap

/-- In every object the keys stand for different texts. -/
inductive Distinct : Source → Prop
  | scalar (s : Scalar) : Distinct (.scalar s)
  | array {items : List Source} (each : ∀ item ∈ items, Distinct item) : Distinct (.array items)
  | object {members : List (Spelling × Source)}
    (keys : members.Pairwise fun a b => ∀ key, a.1.value? = some key → b.1.value? ≠ some key)
    (each : ∀ entry ∈ members, Distinct entry.2) : Distinct (.object members)

/-- In every object the keys ascend, compared byte by byte. -/
inductive Ascending : Source → Prop
  | scalar (s : Scalar) : Ascending (.scalar s)
  | array {items : List Source} (each : ∀ item ∈ items, Ascending item) : Ascending (.array items)
  | object {members : List (Spelling × Source)}
    (keys : members.Pairwise fun a b => ∃ key key', a.1.value? = some key ∧
      b.1.value? = some key' ∧ Text.bytes key < Text.bytes key')
    (each : ∀ entry ∈ members, Ascending entry.2) : Ascending (.object members)

/-- Two documents that differ in the order of members only, in any objects at any depth. -/
inductive Rearranged : Source → Source → Prop
  | refl (source : Source) : Rearranged source source
  | trans {a b c : Source} (first : Rearranged a b) (second : Rearranged b c) : Rearranged a c
  | members {members members' : List (Spelling × Source)} (perm : members.Perm members') :
    Rearranged (.object members) (.object members')
  | inArray (before after : List Source) {a b : Source} (inner : Rearranged a b) :
    Rearranged (.array (before ++ a :: after)) (.array (before ++ b :: after))
  | inObject (before after : List (Spelling × Source)) (key : Spelling) {a b : Source}
    (inner : Rearranged a b) :
    Rearranged (.object (before ++ (key, a) :: after)) (.object (before ++ (key, b) :: after))

/-- What holds of a container if it holds of what is inside holds of every document. -/
theorem induct {P : Source → Prop} (scalar : ∀ s, P (.scalar s))
    (array : ∀ items, (∀ item ∈ items, P item) → P (.array items))
    (object : ∀ members : List (Spelling × Source), (∀ entry ∈ members, P entry.2) →
      P (.object members)) (source : Source) : P source := by
  match source with
  | .scalar s => exact scalar s
  | .array items => exact array items fun item _ => induct scalar array object item
  | .object members => exact object members fun entry _ => induct scalar array object entry.2
termination_by source
decreasing_by
  · rename_i member
    have := List.sizeOf_lt_of_mem member
    simp only [Source.array.sizeOf_spec]
    omega
  · rename_i member
    have := List.sizeOf_lt_of_mem member
    obtain ⟨key, value⟩ := entry
    simp only [Source.object.sizeOf_spec, Prod.mk.sizeOf_spec] at *
    omega

end Source

end ComponentPack.Json
