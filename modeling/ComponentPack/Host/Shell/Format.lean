import ComponentPack.Host.Shell.Escape
import ComponentPack.Host.Shell.Expression
import ComponentPack.Host.Shell.Report
import ComponentPack.Number.Written

/-!
Formats: texts with directives in which words are put. A format is used again until no word is left.
-/

namespace ComponentPack.Host

structure Directive where
  flags : Text := []
  width : Nat := 0
  places? : Option Nat := none
  letter : Char
deriving DecidableEq, Repr

namespace Directive

def has (directive : Directive) (flag : Char) : Bool := flag ∈ directive.flags

def padded (directive : Directive) (text : Text) : Text :=
  let blanks := List.replicate (directive.width - text.length) ' '
  if directive.has '-' then text ++ blanks else blanks ++ text

/-- Fills up a number to the width; zeros come after what stands in front of it. -/
def filled (directive : Directive) (takesZeros : Bool) (front digits : Text) : Text :=
  if directive.has '0' ∧ !directive.has '-' ∧ takesZeros then
    let missing := directive.width - front.length - digits.length
    front ++ List.replicate missing '0' ++ digits
  else directive.padded (front ++ digits)

def sign (directive : Directive) (negative : Bool) : Text :=
  if negative then ['-'] else if directive.has '+' then ['+']
  else if directive.has ' ' then [' '] else []

def cut (directive : Directive) (text : Text) : Text :=
  match directive.places? with
  | some places => text.take places
  | none => text

def isSigned (directive : Directive) : Bool := directive.letter = 'd' || directive.letter = 'i'

def isReal (directive : Directive) : Bool :=
  directive.letter ∈ ['a', 'A', 'e', 'E', 'f', 'F', 'g', 'G']

def integerText (directive : Directive) (value : Int) : Text :=
  let word := (value % 2 ^ (64 : Nat)).toNat
  let digits := match directive.letter with
    | 'o' => Nat.toDigits 8 word
    | 'x' => Nat.toDigits 16 word
    | 'X' => (Nat.toDigits 16 word).map Char.toUpper
    | 'u' => Nat.toDigits 10 word
    | _ => Nat.toDigits 10 value.natAbs
  let digits := if value = 0 ∧ directive.places? = some 0 then [] else digits
  let digits := List.replicate (directive.places?.getD 0 - digits.length) '0' ++ digits
  let front : Text :=
    if directive.isSigned then directive.sign (value < 0)
    else if directive.has '#' then
      match directive.letter with
      | 'x' => if word = 0 then [] else ['0', 'x']
      | 'X' => if word = 0 then [] else ['0', 'X']
      | 'o' => if digits.head? = some '0' then [] else ['0']
      | _ => []
    else []
  directive.filled directive.places?.isNone front digits

/-- The number that a word begins with, and what is wrong with the word. A number beyond the range
becomes the nearest one in it; without signs, a negative number has high bits. -/
def integer (isSigned : Bool) (word : Text) : Int × Option String :=
  let trimmed := word.dropWhile Expression.isSpace
  let (negative, rest) : Bool × Text := match trimmed with
    | '-' :: rest => (true, rest)
    | '+' :: rest => (false, rest)
    | rest => (false, rest)
  match word with
  | [] => (0, none)
  | '\'' :: after | '"' :: after => ((after.head?.map Char.toNat).getD 0, none)
  | _ =>
    let (digits, value) := Expression.leadingNumber rest
    let exact : Int := if negative then -value else value
    let nearest : Int :=
      if isSigned then Expression.clamp exact
      else if 2 ^ (64 : Nat) ≤ value then 2 ^ (64 : Nat) - 1 else exact
    (nearest,
      if digits.isEmpty then some "expected numeric value"
      else if digits.length < rest.length then some "not completely converted"
      else if nearest ≠ exact then some "Numerical result out of range"
      else none)

def realText (directive : Directive) (value : Scalar) : Text :=
  let front := directive.sign value.isNegative
  let showsPoint := directive.has '#'
  let places := directive.places?.getD 6
  let text : Text := match value with
    | .infinite _ => "inf"
    | .undefined _ => "nan"
    | .finite x =>
      match directive.letter.toLower with
      | 'f' => x.fixed places showsPoint
      | 'e' => x.scientific places showsPoint
      | 'g' => x.general places showsPoint
      | _ => x.hexadecimal directive.places? showsPoint
  let isFinite : Bool := match value with
    | .finite _ => true
    | _ => false
  -- Zeros come after the mark of the base, too.
  let (front, text) : Text × Text :=
    if isFinite ∧ directive.letter.toLower = 'a' then (front ++ text.take 2, text.drop 2)
    else (front, text)
  let shown := directive.filled isFinite front text
  if directive.letter.isUpper then shown.map Char.toUpper else shown

def real (word : Text) : Scalar × Option String :=
  let zero : Scalar := .finite (.zero false)
  match word with
  | [] => (zero, none)
  | '\'' :: after | '"' :: after =>
    ((Scalar.nearest false ((after.head?.map Char.toNat).getD 0) 1).1, none)
  | _ =>
    match Scalar.read? (word.dropWhile Expression.isSpace) with
    | none => (zero, some "expected numeric value")
    | some (value, isOut, rest) =>
      (value,
        if !rest.isEmpty then some "not completely converted"
        else if isOut then some "Numerical result out of range"
        else none)

def noted (word text : Text) : Option String → Report
  | none => { text := text }
  | some fault => ⟨text, [word ++ ": " ++ fault.toList], 1⟩

/-- Puts a word in a format; the last part tells whether the output ends with it. -/
def put (directive : Directive) (word? : Option Text) : Report × Bool :=
  let word := word?.getD []
  match directive.letter with
  | 's' => ({ text := directive.padded (directive.cut word) }, false)
  | 'c' => ({ text := directive.padded [word.headD '\x00'] }, false)
  | 'b' =>
    let (text, isCut) := Escape.meant word
    ({ text := directive.padded (directive.cut text) }, isCut)
  | _ =>
    if directive.isReal then
      let (value, fault?) := real word
      (noted word (directive.realText value) fault?, false)
    else
      let (value, fault?) := integer directive.isSigned word
      (noted word (directive.integerText value) fault?, false)

/-- A directive with the sizes that words give it; a negative width stands for the flag `-`. -/
def resized (sizes : List (Bool × Int)) (directive : Directive) : Directive :=
  sizes.foldl (fun directive (isWidth, size) =>
    if !isWidth then { directive with places? := if size < 0 then none else some size.toNat }
    else if size < 0 then
      { directive with flags := '-' :: directive.flags, width := size.natAbs }
    else { directive with width := size.toNat }) directive

end Directive

namespace Format

inductive Part where
  | char (c : Char)
  | directive (directive : Directive)
  /-- The width, or the number of places, of the directive after it is one of the words. -/
  | size (isWidth : Bool)
  | unknown (complaint : Text)
deriving DecidableEq, Repr

/-- A number in a directive: the characters that it has, and its value, which may be one of the
words. -/
def directiveNumber (isWidth : Bool) (text : Text) : Nat × Nat × List Part :=
  match text with
  | '*' :: _ => (1, 0, [.size isWidth])
  | _ =>
    let digits := text.takeWhile Char.isDigit
    (digits.length, Nat.ofDigitChars 10 digits 0, [])

def letters : Text :=
  ['s', 'b', 'c', 'd', 'i', 'o', 'u', 'x', 'X', 'a', 'A', 'e', 'E', 'f', 'F', 'g', 'G']

def directive (text : Text) : List Part × Nat :=
  let flags := text.takeWhile (· ∈ ['-', '+', ' ', '0', '#'])
  let rest := text.drop flags.length
  let (widthSize, width, widthParts) := directiveNumber true rest
  let rest := rest.drop widthSize
  let (placesSize, places?, placesParts) : Nat × Option Nat × List Part := match rest with
    | '.' :: rest =>
      let (size, places, parts) := directiveNumber false rest
      (size + 1, some places, parts)
    | _ => (0, none, [])
  let rest := rest.drop placesSize
  let size := flags.length + widthSize + placesSize
  match rest with
  | [] => ([.unknown "missing format character"], size)
  | letter :: _ =>
    if letter = '%' ∧ size = 0 then ([.char '%'], 1)
    else if letter ∈ letters then
      (widthParts ++ placesParts ++ [.directive ⟨flags, width, places?, letter⟩], size + 1)
    else
      (widthParts ++ placesParts ++
        [.unknown ('%' :: text.take (size + 1) ++ ": invalid directive")], size + 1)

def partsFrom : Nat → Text → List Part
  | 0, _ | _, [] => []
  | fuel + 1, '%' :: rest =>
    let (parts, size) := directive rest
    parts ++ partsFrom fuel (rest.drop size)
  | fuel + 1, '\\' :: rest =>
    let (c, size) := Escape.read rest
    .char c :: partsFrom fuel (rest.drop size)
  | fuel + 1, c :: rest => .char c :: partsFrom fuel rest

def parts (format : Text) : List Part := partsFrom format.length format

/-- What comes of using a format once: the report, the words that are left, and whether the output
ends. -/
def usedOnce (sizes : List (Bool × Int)) (words : List Text) :
    List Part → Report × List Text × Bool
  | [] => ({}, words, false)
  | .char c :: parts =>
    let (report, rest) := usedOnce sizes words parts
    ({ report with text := c :: report.text }, rest)
  | .unknown complaint :: _ => (.refusal 2 complaint, [], true)
  | .size isWidth :: parts =>
    let word := words.headD []
    let (value, fault?) := Directive.integer true word
    -- Sizes have 32 bits.
    let size := Int.bmod value (2 ^ (32 : Nat))
    let (report, rest) := usedOnce (sizes ++ [(isWidth, size)]) (words.drop 1) parts
    ((Directive.noted word [] fault?).append report, rest)
  | .directive directive :: parts =>
    let (report, ends) := (directive.resized sizes).put words.head?
    if ends then (report, [], true)
    else
      let (others, rest) := usedOnce [] (words.drop 1) parts
      (report.append others, rest)

def used (parts : List Part) : Nat → List Text → Report
  | 0, _ => {}
  | rounds + 1, words =>
    let (report, rest, ends) := usedOnce [] words parts
    if ends ∨ rest.isEmpty ∨ rest.length = words.length then report
    else report.append (used parts rounds rest)

def printf (words : List Text) : Report :=
  match words with
  | ['-', '-'] :: format :: words => used (parts format) (words.length + 1) words
  | [] | [['-', '-']] => .refusal 2 "usage: printf format [arg ...]"
  | ('-' :: letter :: _) :: _ => .refusal 2 ("Illegal option -" ++ [letter])
  | format :: words => used (parts format) (words.length + 1) words

end Format

end ComponentPack.Host
