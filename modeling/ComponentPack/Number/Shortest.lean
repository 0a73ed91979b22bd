import ComponentPack.Number.Binary64
import ComponentPack.Text.Basic

/-!
The shortest decimal that reads back as a number, and how it is laid out.

The decimals that read back lie in an interval around the number, whose ends belong to it when the
significand is even. Grids of ever more digits are tried; on each only the two neighbours of the
number can be nearest, and the first grid with a neighbour inside the interval wins.
-/

namespace ComponentPack

/-- The decimal `digits * 10 ^ exponent`. -/
structure Decimal where
  digits : Nat
  exponent : Int
deriving DecidableEq, Repr

namespace Decimal

def unscale (num den : Nat) (k : Int) : Nat × Nat :=
  match k with
  | .ofNat n => (num, den * 10 ^ n)
  | .negSucc n => (num * 10 ^ (n + 1), den)

/-- The greatest `k` with `10 ^ k ≤ num / den`, for positive `num` and `den`. -/
def floorLog (num den : Nat) : Int :=
  if den ≤ num then ((Nat.toDigits 10 (num / den)).length : Int) - 1
  else
    let k := (Nat.toDigits 10 (den / num)).length - 1
    if den ≤ num * 10 ^ k then -(k : Int) else -(k + 1 : Int)

/-- The interval of reals that round to a positive number, as four multiples of one quarter of the
unit of its significand: lower end, the number, upper end. Below a power of two the numbers lie
twice as dense. -/
def interval (x : Binary64) : Nat × Nat × Nat :=
  let m := 4 * x.significand
  let below := if x.significand = 2 ^ (52 : Nat) ∧ x.exponent ≠ Binary64.minExponent then 1 else 2
  (m - below, m, m + 2)

def readsBack (x : Binary64) (digits : Nat) (k : Int) : Bool :=
  let (low, _, high) := interval x
  let unit := x.exponent - 2
  let (n, d) := match k with
    | .ofNat j => (digits * 10 ^ j, 1)
    | .negSucc j => (digits, 10 ^ (j + 1))
  let (n, d) := Binary64.scale n d (-unit)
  if x.significand % 2 = 0 then low * d ≤ n && n ≤ high * d
  else low * d < n && n < high * d

/-- The neighbour of a number that reads back on the grid of the multiples of `10 ^ k`; of two, the
nearer, and of two equally near ones the even one. -/
def onGrid? (x : Binary64) (k : Int) : Option Decimal :=
  let (num, den) := x.ratio
  let (n, d) := unscale num den k
  let low := n / d
  match readsBack x low k, readsBack x (low + 1) k with
  | true, true => some ⟨roundQuotient n d, k⟩
  | true, false => some ⟨low, k⟩
  | false, true => some ⟨low + 1, k⟩
  | false, false => none

/-- Tries the grids with `count` digits and more, `tries` of them. -/
def firstOnGrid (x : Binary64) (top : Int) (count : Nat) : Nat → Decimal
  | 0 => ⟨0, 0⟩
  | tries + 1 =>
    match onGrid? x (top - count) with
    | some decimal => decimal
    | none => firstOnGrid x top (count + 1) tries

/-- The shortest decimal that reads back as a number: seventeen digits always suffice. -/
def shortest (x : Binary64) : Decimal :=
  if x.isZero then ⟨0, 0⟩
  else
    let (num, den) := x.ratio
    firstOnGrid x (floorLog num den) 0 17

/-- Drops the zeros at the end of the digits, which the exponent then counts. -/
def dropZeros (count : Nat) (decimal : Decimal) : Decimal :=
  match count with
  | 0 => decimal
  | count + 1 =>
    if decimal.digits % 10 = 0 ∧ decimal.digits ≠ 0 then
      dropZeros count ⟨decimal.digits / 10, decimal.exponent + 1⟩
    else decimal

/-- How decimals are laid out: the powers of ten of the first digit that are written without an
exponent. -/
structure Layout where
  lowest : Int
  highest : Int

/-- Positional text has at least one digit on either side of the point. -/
def positional (digits : Text) (exponent : Int) : Text :=
  match exponent with
  | .ofNat n => digits ++ List.replicate n '0' ++ ".0"
  | .negSucc n =>
    let places := n + 1
    if places < digits.length then
      digits.take (digits.length - places) ++ ['.'] ++ digits.drop (digits.length - places)
    else "0." ++ List.replicate (places - digits.length) '0' ++ digits

/-- Scientific text has one digit before the point, and a sign before the exponent. -/
def scientific (digits : Text) (leading : Int) : Text :=
  let tail := digits.drop 1
  digits.take 1 ++ (if tail.isEmpty then [] else '.' :: tail) ++ ['e'] ++
    (if leading < 0 then ['-'] else ['+']) ++ Text.ofNat leading.natAbs

def render (layout : Layout) (x : Binary64) : Text :=
  let decimal := dropZeros 17 (shortest x)
  let digits := Text.ofNat decimal.digits
  let leading := decimal.exponent + digits.length - 1
  let magnitude :=
    if x.isZero then "0.0".toList
    else if layout.lowest ≤ leading ∧ leading ≤ layout.highest then
      positional digits decimal.exponent
    else scientific digits leading
  if x.negative then '-' :: magnitude else magnitude

end Decimal

end ComponentPack
