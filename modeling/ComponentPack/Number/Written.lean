import ComponentPack.Number.Binary64
import ComponentPack.Text.Basic

/-!
Binary floating-point numbers as text. A number is read to the nearest one that can be represented;
it is written with a wanted number of places, and the exact value decides how the last place is
rounded, ties to even.
-/

namespace ComponentPack

inductive Scalar where
  | finite (value : Binary64)
  | infinite (negative : Bool)
  | undefined (negative : Bool)
deriving DecidableEq, Repr

namespace Scalar

def isNegative : Scalar → Bool
  | finite value => value.negative
  | infinite negative | undefined negative => negative

def digit? (base : Nat) (c : Char) : Option Nat :=
  let value? :=
    if c.isDigit then some (c.toNat - '0'.toNat)
    else if 'a' ≤ c.toLower ∧ c.toLower ≤ 'f' then some (c.toLower.toNat - 'a'.toNat + 10)
    else none
  value?.filter (· < base)

def isDigit (base : Nat) (c : Char) : Bool := (digit? base c).isSome

def ofDigits (base : Nat) (digits : Text) : Nat :=
  digits.foldl (fun value c => value * base + (digit? base c).getD 0) 0

/-- A number in some base: its digits, how many of them stand after the point, an exponent, and the
text after the number. -/
structure Numeral where
  digits : Text
  places : Nat
  exponent : Int
  rest : Text

def exponentFrom (letter : Char) (text : Text) : Int × Text :=
  match text with
  | c :: after =>
    if c.toLower = letter then
      let (negative, unsigned) : Bool × Text := match after with
        | '-' :: rest => (true, rest)
        | '+' :: rest => (false, rest)
        | rest => (false, rest)
      let digits := unsigned.takeWhile Char.isDigit
      if digits.isEmpty then (0, text)
      else
        let value : Int := ofDigits 10 digits
        (if negative then -value else value, unsigned.drop digits.length)
    else (0, text)
  | [] => (0, text)

def numeral? (base : Nat) (letter : Char) (text : Text) : Option Numeral :=
  let whole := text.takeWhile (isDigit base)
  let (part, rest) : Text × Text := match text.drop whole.length with
    | '.' :: rest => (rest.takeWhile (isDigit base), rest.dropWhile (isDigit base))
    | rest => ([], rest)
  -- A point without digits is no number, and one after digits belongs to them.
  if whole.isEmpty ∧ part.isEmpty then none
  else
    let (exponent, rest) := exponentFrom letter rest
    some ⟨whole ++ part, part.length, exponent, rest⟩

/-- The number nearest to a quotient, and whether it is beyond the numbers or between them and
zero. -/
def nearest (negative : Bool) (num den : Nat) : Scalar × Bool :=
  match Binary64.ofRatio? negative num den with
  | none => (.infinite negative, true)
  | some value =>
    let (a, b) := value.ratio
    (.finite value, value.significand < 2 ^ (52 : Nat) && a * den != num * b)

/-- The exponents of ten beyond which nothing is a number. -/
def maxMagnitude : Int := 400

/-- The value of a number in base ten, or in base sixteen, where the exponent is one of two. -/
def Numeral.value (numeral : Numeral) (isHex negative : Bool) : Scalar × Bool :=
  let digits := ofDigits (if isHex then 16 else 10) numeral.digits
  let (base, exponent) : Nat × Int :=
    if isHex then (2, numeral.exponent - 4 * numeral.places)
    else (10, numeral.exponent - numeral.places)
  let size : Int := numeral.digits.length
  if digits = 0 then (.finite (.zero negative), false)
  else if 4 * maxMagnitude < exponent then (.infinite negative, true)
  else if exponent + 4 * size < -4 * maxMagnitude then (.finite (.zero negative), true)
  else if 0 ≤ exponent then nearest negative (digits * base ^ exponent.toNat) 1
  else nearest negative digits (base ^ exponent.natAbs)

def passWord? (word : String) (text : Text) : Option Text :=
  if Text.lower (text.take word.length) = word.toList then some (text.drop word.length) else none

/-- Reads a number without a sign: its value, whether that is out of range, and what follows. -/
def magnitude? (negative : Bool) (text : Text) : Option (Scalar × Bool × Text) :=
  let decimal? : Option (Scalar × Bool × Text) :=
    (numeral? 10 'e' text).map fun numeral =>
      let (value, isOut) := numeral.value false negative
      (value, isOut, numeral.rest)
  match (passWord? "infinity" text).or (passWord? "inf" text), passWord? "nan" text,
    passWord? "0x" text with
  | some rest, _, _ => some (.infinite negative, false, rest)
  | _, some rest, _ => some (.undefined negative, false, rest)
  | _, _, some digits =>
    match numeral? 16 'p' digits with
    | some numeral =>
      let (value, isOut) := numeral.value true negative
      some (value, isOut, numeral.rest)
    | none => decimal?
  | none, none, none => decimal?

def read? (text : Text) : Option (Scalar × Bool × Text) :=
  match text with
  | '-' :: rest => magnitude? true rest
  | '+' :: rest => magnitude? false rest
  | rest => magnitude? false rest

end Scalar

namespace Binary64

def roundScaled (num den : Nat) (power : Int) : Nat :=
  if 0 ≤ power then roundQuotient (num * 10 ^ power.toNat) den
  else roundQuotient num (den * 10 ^ power.natAbs)

/-- The greatest `e` with `10 ^ e ≤ num / den`, for positive `num` and `den`. -/
def floorLog10 (num den : Nat) : Int :=
  let e : Int := (Nat.toDigits 10 num).length - (Nat.toDigits 10 den).length
  let isLess := if 0 ≤ e then num < den * 10 ^ e.toNat else num * 10 ^ e.natAbs < den
  if isLess then e - 1 else e

def pointed (digits : Text) (places : Nat) (showsPoint : Bool) : Text :=
  let digits := List.replicate (places + 1 - digits.length) '0' ++ digits
  let whole := digits.take (digits.length - places)
  if places = 0 then whole ++ if showsPoint then ['.'] else []
  else whole ++ '.' :: digits.drop (digits.length - places)

def fixed (x : Binary64) (places : Nat) (showsPoint : Bool) : Text :=
  let (num, den) := x.ratio
  pointed (Nat.toDigits 10 (roundScaled num den places)) places showsPoint

/-- The digits of the magnitude, one more than there are places, and the exponent of the first. -/
def significant (x : Binary64) (places : Nat) : Text × Int :=
  let (num, den) := x.ratio
  if num = 0 then (List.replicate (places + 1) '0', 0)
  else
    let e := floorLog10 num den
    let rounded := roundScaled num den (places - e)
    if rounded = 10 ^ (places + 1) then (Nat.toDigits 10 (10 ^ places), e + 1)
    else (Nat.toDigits 10 rounded, e)

def exponentText (letter : Char) (least : Nat) (e : Int) : Text :=
  let digits := Nat.toDigits 10 e.natAbs
  letter :: (if e < 0 then '-' else '+') :: List.replicate (least - digits.length) '0' ++ digits

def scientific (x : Binary64) (places : Nat) (showsPoint : Bool) : Text :=
  let (digits, e) := x.significant places
  pointed digits places showsPoint ++ exponentText 'e' 2 e

def withoutZeros (text : Text) : Text :=
  if text.any (· = '.') then
    let kept := text.reverse.dropWhile (· = '0')
    (if kept.head? = some '.' then kept.drop 1 else kept).reverse
  else text

/-- The magnitude with at most so many digits, in the shorter one of the other forms. -/
def general (x : Binary64) (digits : Nat) (keepsZeros : Bool) : Text :=
  let digits := max digits 1
  let (shown, e) := x.significant (digits - 1)
  if -4 ≤ e ∧ e < digits then
    let text := x.fixed (digits - 1 - e).toNat keepsZeros
    if keepsZeros then text else withoutZeros text
  else
    let text := pointed shown (digits - 1) keepsZeros
    (if keepsZeros then text else withoutZeros text) ++ exponentText 'e' 2 e

/-- The magnitude in base sixteen, with one binary digit before the point if it is not too
small. -/
def hexadecimal (x : Binary64) (places? : Option Nat) (showsPoint : Bool) : Text :=
  let e : Int := if x.isZero then 0 else x.exponent + 52
  -- Smaller numbers have the least exponent, and greater ones the full number of digits.
  let missing := if x.isZero ∨ x.exponent = minExponent then 0 else 52 - Nat.log2 x.significand
  let significand := x.significand * 2 ^ missing
  let e := e - missing
  let (value, places) : Nat × Nat := match places? with
    | some places =>
      if places < 13 then (roundQuotient significand (2 ^ (4 * (13 - places))), places)
      else (significand * 16 ^ (places - 13), places)
    | none => (significand, 13)
  let text := pointed (Nat.toDigits 16 value) places showsPoint
  let text := if places?.isSome then text else
    let short := withoutZeros text
    if showsPoint ∧ !short.any (· = '.') then short ++ ['.'] else short
  '0' :: 'x' :: text ++ exponentText 'p' 1 e

end Binary64

end ComponentPack
