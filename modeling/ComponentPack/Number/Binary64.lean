import ComponentPack.Instances

/-!
Finite binary floating-point numbers of 64 bits, as a sign, an integral significand below `2 ^ 53`
and a power of two. Every operation works out the exact quotient of two natural numbers and rounds
it once, to nearest with ties to even (`Binary64.ofRatio?`).
-/

namespace ComponentPack

/-- The quotient of two numbers rounded to the nearest integer; a tie goes to the even one. -/
def roundQuotient (num den : Nat) : Nat :=
  let q := num / den
  let twice := 2 * (num % den)
  if twice < den then q
  else if den < twice then q + 1
  else q + q % 2

/-- The number `± significand * 2 ^ exponent`. -/
structure Binary64 where
  negative : Bool
  significand : Nat
  exponent : Int
deriving DecidableEq, Repr

namespace Binary64

def minExponent : Int := -1074

def maxExponent : Int := 971

def zero (negative : Bool) : Binary64 := ⟨negative, 0, minExponent⟩

def isZero (x : Binary64) : Bool := x.significand == 0

/-- Twice a fraction `e` times, where a negative `e` halves. -/
def scale (num den : Nat) (e : Int) : Nat × Nat :=
  match e with
  | .ofNat n => (num * 2 ^ n, den)
  | .negSucc n => (num, den * 2 ^ (n + 1))

/-- The greatest `e` with `2 ^ e ≤ num / den`, for positive `num` and `den`. -/
def floorLog (num den : Nat) : Int :=
  let e : Int := (Nat.log2 num : Int) - (Nat.log2 den : Int)
  let (n, d) := scale num den (-e)
  if n < d then e - 1 else e

/-- The number nearest to a quotient, or `none` if it is beyond the greatest number. -/
def ofRatio? (negative : Bool) (num den : Nat) : Option Binary64 :=
  if num = 0 then some (zero negative)
  else
    let q := max (floorLog num den - 52) minExponent
    let (n, d) := scale num den (-q)
    let m := roundQuotient n d
    let (m, q) := if m = 2 ^ (53 : Nat) then (2 ^ (52 : Nat), q + 1) else (m, q)
    if maxExponent < q then none else some ⟨negative, m, q⟩

def ratio (x : Binary64) : Nat × Nat := scale x.significand 1 x.exponent

/-- The power of ten nearest to `10 ^ n`, for the exponents that a number can have. -/
def powerOfTen? (n : Nat) : Option Binary64 := ofRatio? false (10 ^ n) 1

def mul? (x y : Binary64) : Option Binary64 :=
  let (a, b) := x.ratio
  let (c, d) := y.ratio
  ofRatio? (x.negative != y.negative) (a * c) (b * d)

def div? (x y : Binary64) : Option Binary64 :=
  let (a, b) := x.ratio
  let (c, d) := y.ratio
  ofRatio? (x.negative != y.negative) (a * d) (b * c)

def maxDecimalExponent : Nat := 308

/-- Divides by the greatest power of ten, a number of times; every division rounds. -/
def shrink? : Nat → Binary64 → Option Binary64
  | 0, x => some x
  | n + 1, x =>
    if x.isZero then some x
    else ((powerOfTen? maxDecimalExponent).bind x.div?).bind (shrink? n)

/-- A number times a power of ten. An exponent below the least one is taken in steps; `none` if the
product is beyond the greatest number. -/
def timesPowerOfTen? (x : Binary64) : Int → Option Binary64
  | .ofNat n =>
    if x.isZero then some x
    else if maxDecimalExponent < n then none
    else (powerOfTen? n).bind x.mul?
  | .negSucc n =>
    let steps := n / maxDecimalExponent
    (shrink? steps x).bind fun y =>
      if y.isZero then some y
      else (powerOfTen? (n + 1 - steps * maxDecimalExponent)).bind y.div?

/-- The number nearest to a decimal: the significand is rounded, then scaled by a rounded power of
ten. -/
def ofDecimal? (negative : Bool) (digits : Nat) (exponent : Int) : Option Binary64 :=
  match ofRatio? negative digits 1 with
  | some x => x.timesPowerOfTen? exponent
  | none => none

end Binary64

end ComponentPack
