import ComponentPack.Text.Basic

/-!
Numbers of stylesheets. They are read exactly and written with at most six digits that count.
-/

namespace ComponentPack.Stylesheet

/-- A number as it is written: its value, whether it has a sign, and whether it is written as a
whole number. -/
structure Numeral where
  value : Rat
  hasSign : Bool
  isWhole : Bool
deriving DecidableEq, Repr

namespace Numeral

/-- The exponent after the digits of a number; large ones are not told apart. -/
def exponentOf (text : Text) : Int :=
  let size : Nat := min 100 (Nat.ofDigitChars 10 (text.filter Char.isDigit) 0)
  if '-' ∈ text then -size else size

def scaled (digits : Nat) (power : Int) : Rat :=
  if 0 ≤ power then ((digits * 10 ^ power.toNat : Nat) : Rat)
  else mkRat digits (10 ^ (-power).toNat)

def read (text : Text) : Numeral :=
  let sign := text.takeWhile fun c => c = '+' ∨ c = '-'
  let unsigned := text.drop sign.length
  let mantissa := unsigned.takeWhile fun c => c.isDigit ∨ c = '.'
  let whole := mantissa.takeWhile Char.isDigit
  let part := mantissa.drop (whole.length + 1)
  let power := exponentOf (unsigned.drop mantissa.length)
  let size := scaled (Nat.ofDigitChars 10 (whole ++ part) 0) (power - part.length)
  { value := if sign = ['-'] then -size else size
    hasSign := !sign.isEmpty
    isWhole := whole.length = unsigned.length }

def precision : Nat := 6

/-- The places of a small number between its point and its first digit that counts, and one more; at
most so many are looked at. -/
def placesBefore (value : Rat) : Nat → Nat
  | 0 => 1
  | fuel + 1 => if 1 ≤ value * 10 then 1 else 1 + placesBefore (value * 10) fuel

/-- The digits of a positive number, without zeros at the end, and how many places the point stands
behind the first one's left side. -/
def digits (value : Rat) : Text × Int :=
  let point : Int :=
    if 1 ≤ value then (Nat.toDigits 10 value.floor.toNat).length else 1 - placesBefore value 60
  let shift := (precision : Int) - point
  let size := if 0 ≤ shift then value * scaled 1 shift else value / scaled 1 (-shift)
  let rounded := Nat.toDigits 10 (size + 1 / 2).floor.toNat
  let point := if precision < rounded.length then point + 1 else point
  ((rounded.reverse.dropWhile (· = '0')).reverse, point)

/-- Digits with a point at a place; far away ones are written with an exponent. -/
def placed (digits : Text) (point : Int) : Text :=
  if 21 < point ∨ point ≤ -6 then
    digits.take 1 ++ (if digits.length = 1 then [] else '.' :: digits.drop 1) ++
      'e' :: Text.ofInt (point - 1)
  else if point ≤ 0 then '0' :: '.' :: List.replicate point.natAbs '0' ++ digits
  else if digits.length ≤ point then
    digits ++ List.replicate (point.toNat - digits.length) '0'
  else digits.take point.toNat ++ '.' :: digits.drop point.toNat

def longText (value : Rat) : Text :=
  if value = 0 then ['0']
  else
    let (digits, point) := digits (if value < 0 then -value else value)
    (if value < 0 then ['-'] else []) ++ placed digits point

def text (value : Rat) : Text :=
  match longText value with
  | '0' :: '.' :: rest => '.' :: rest
  | '-' :: '0' :: '.' :: rest => '-' :: '.' :: rest
  | text => text

/-- The text of a number that is not looked at further: its sign is kept, and a number that was not
written as a whole one is not written as one. -/
def keptText (numeral : Numeral) : Text :=
  let text := longText numeral.value
  (if numeral.hasSign ∧ 0 ≤ numeral.value then ['+'] else []) ++ text ++
    if !numeral.isWhole ∧ numeral.value.den = 1 ∧ text.all fun c => c ≠ '.' ∧ c ≠ 'e' then
      ['.', '0']
    else []

end Numeral

end ComponentPack.Stylesheet
