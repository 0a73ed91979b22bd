import ComponentPack.Stylesheet.Grammar

/-!
Measures: lengths, shares in percent, angles and times, written as numbers with units or computed
from them. What is computed is a sum of multiples of units; only sums of units that cannot be
compared are left to be computed later.
-/

namespace ComponentPack.Stylesheet

namespace Measure

def relativeUnits : List Text :=
  ["em", "rem", "ex", "rex", "ch", "rch", "cap", "rcap", "ic", "ric", "lh", "rlh", "vw", "lvw",
    "svw", "dvw", "cqw", "vh", "lvh", "svh", "dvh", "cqh", "vi", "lvi", "svi", "dvi", "cqi", "vb",
    "lvb", "svb", "dvb", "cqb", "vmin", "lvmin", "svmin", "dvmin", "cqmin", "vmax", "lvmax",
    "svmax", "dvmax", "cqmax"].map String.toList

/-- How many pixels a unit has that depends on nothing. -/
def pixels? (unit : Text) : Option Rat :=
  match String.ofList unit with
  | "px" => some 1
  | "in" => some 96
  | "cm" => some (9600 / 254)
  | "mm" => some (960 / 254)
  | "q" => some (240 / 254)
  | "pt" => some (96 / 72)
  | "pc" => some 16
  | _ => none

def isLength (unit : Text) : Bool := (pixels? unit).isSome || unit ∈ relativeUnits

/-- The ratio of a circle to its diameter. -/
def circle : Rat := 3141592653589793 / 1000000000000000

def degrees? (unit : Text) : Option Rat :=
  match String.ofList unit with
  | "deg" => some 1
  | "grad" => some (9 / 10)
  | "rad" => some (180 / circle)
  | "turn" => some 360
  | _ => none

def seconds? (unit : Text) : Option Rat :=
  match String.ofList unit with
  | "s" => some 1
  | "ms" => some (1 / 1000)
  | _ => none

inductive Kind where
  | number
  | percentage
  | length
  | lengthPercentage
  | angle
  | anglePercentage
  | time
deriving DecidableEq, Repr

def Kind.has (kind : Kind) (unit : Text) : Bool :=
  match kind with
  | number => unit.isEmpty
  | percentage => unit = ['%']
  | length => isLength unit
  | lengthPercentage => isLength unit || unit = ['%']
  | angle => (degrees? unit).isSome
  | anglePercentage => (degrees? unit).isSome || unit = ['%']
  | time => (seconds? unit).isSome

def Kind.unitless : Kind → Text
  | length | lengthPercentage => "px"
  | _ => []

/-- What a term is a multiple of: a unit, or a call that is left, with the units in it. -/
inductive Factor where
  | unit (unit : Text)
  | call (text : Text) (units : List Text)
deriving DecidableEq, Repr

structure Term where
  size : Rat
  factor : Factor
deriving DecidableEq, Repr

abbrev Sum := List Term

/-- The sum of two terms with the same unit, or with units that can be converted. -/
def Term.add? (a b : Term) : Option Term :=
  if a.factor = b.factor then some { a with size := a.size + b.size }
  else
    match a.factor, b.factor with
    | .unit u, .unit v =>
      let converted (size? : Text → Option Rat) (unit : String) : Option Term := do
        return ⟨a.size * (← size? u) + b.size * (← size? v), .unit unit.toList⟩
      converted pixels? "px" <|> converted degrees? "deg" <|> converted seconds? "s"
    | _, _ => none

namespace Sum

def of (size : Rat) (unit : Text) : Sum := [⟨size, .unit unit⟩]

def isZero (sum : Sum) : Bool := sum.all fun term => term.size = 0

def times (sum : Sum) (size : Rat) : Sum :=
  sum.map fun term => { term with size := term.size * size }

def number? : Sum → Option Rat
  | [⟨size, .unit []⟩] => some size
  | _ => none

def insert (term : Term) : Sum → Sum
  | [] => [term]
  | first :: rest =>
    match first.add? term with
    | some both => both :: rest
    | none => first :: insert term rest

/-- The sum of two sums. Terms that are nothing are left out, and of two terms a negative one comes
last. -/
def add (a b : Sum) : Sum :=
  let sum := b.foldl (fun sum term => insert term sum) a
  match sum.filter fun term => term.size ≠ 0 with
  | [] => sum.take 1
  | [first, second] => if first.size < 0 ∧ 0 < second.size then [second, first] else [first, second]
  | terms => terms

def compare? : Sum → Sum → Option Ordering
  | [a], [b] =>
    match a.factor, b.factor, a.add? { b with size := -b.size } with
    | .unit _, .unit _, some difference =>
      some (if difference.size < 0 then .lt else if difference.size = 0 then .eq else .gt)
    | _, _, _ => none
  | _, _ => none

def units (sum : Sum) : List Text :=
  sum.flatMap fun
    | ⟨_, .unit unit⟩ => [unit]
    | ⟨_, .call _ units⟩ => units

end Sum

def Term.text (term : Term) : Text :=
  match term.factor with
  | .unit unit => Numeral.text term.size ++ unit
  | .call call _ =>
    if term.size = 1 then call
    else if -1 < term.size ∧ term.size < 1 ∧ term.size ≠ 0 then
      call ++ '/' :: Numeral.text (1 / term.size)
    else Numeral.text term.size ++ '*' :: call

def Sum.termsText : Sum → Text
  | [] => []
  | first :: rest =>
    first.text ++ rest.flatMap fun term =>
      if term.size < 0 then " - ".toList ++ { term with size := -term.size }.text
      else " + ".toList ++ term.text

def left (name : String) (arguments : List Sum) : Sum :=
  [⟨1, .call (Grammar.callText name (arguments.map Sum.termsText)) (arguments.flatMap Sum.units)⟩]

def extreme (kept : Ordering) (sums : List Sum) : List Sum :=
  sums.foldl insert []
where
  insert : List Sum → Sum → List Sum
    | [], sum => [sum]
    | known :: rest, sum =>
      match sum.compare? known with
      | some order => (if order = kept then sum else known) :: rest
      | none => known :: insert rest sum

def clamped (least sum greatest : Sum) : Sum :=
  let (sum, greatest?) := match sum.compare? greatest with
    | some .gt => (greatest, none)
    | some _ => (sum, none)
    | none => (sum, some greatest)
  let (sum, least?) := match sum.compare? least with
    | some .lt => (least, none)
    | some _ => (sum, none)
    | none => (sum, some least)
  match least?, greatest? with
  | none, none => sum
  | some least, none => left "max" [least, sum]
  | none, some greatest => left "min" [sum, greatest]
  | some least, some greatest => left "clamp" [least, sum, greatest]

def callValue? (compute : List Component → Option Sum) (name : Text) (inside : List Component) :
    Option Sum := do
  match String.ofList (Text.lower name), ← (Component.parts ',' inside).mapM compute with
  | "calc", [sum] => return sum
  | "min", sums => return one "min" (extreme .lt sums)
  | "max", sums => return one "max" (extreme .gt sums)
  | "clamp", [least, sum, greatest] => return clamped least sum greatest
  | _, _ => none
where
  one (name : String) : List Sum → Sum
    | [sum] => sum
    | sums => left name sums

def operand? (compute : List Component → Option Sum) : Component → Option Sum
  | .token (.number value unit) => some (.of value.value (Text.lower unit))
  | .token (.name text) =>
    match String.ofList (Text.lower text) with
    | "pi" => some (.of circle [])
    | "e" => some (.of (2718281828459045 / 1000000000000000) [])
    | _ => none
  | .block '(' inside => compute inside
  | .call name inside => callValue? compute name inside
  | _ => none

/-- Multiplies and divides as long as there are marks for it, and gives the rest. One of two factors
is a number, and a divisor is one that is not zero. -/
def product? (compute : List Component → Option Sum) (value : Sum) :
    List Component → Option (Sum × List Component)
  | mark :: component :: rest =>
    if mark.isMark '*' then do
      let other ← operand? compute component
      match value.number?, other.number? with
      | _, some size => product? compute (value.times size) rest
      | some size, none => product? compute (other.times size) rest
      | none, none => none
    else if mark.isMark '/' then do
      let size ← (← operand? compute component).number?
      if size = 0 then none else product? compute (value.times (1 / size)) rest
    else some (value, mark :: component :: rest)
  | rest => some (value, rest)

/-- Adds and subtracts products to the end of a row of at most so many components. -/
def sum? (compute : List Component → Option Sum) : Nat → Sum → List Component → Option Sum
  | _, value, [] => some value
  | size + 1, value, mark :: component :: rest => do
    let sign : Rat ← if mark.isMark '+' then some 1 else if mark.isMark '-' then some (-1) else none
    let (other, rest) ← product? compute (← operand? compute component) rest
    sum? compute size (value.add (other.times sign)) rest
  | _, _, _ => none

def compute? : Nat → List Component → Option Sum
  | 0, _ => none
  | depth + 1, row =>
    match Component.solid row with
    | [] => none
    | component :: rest => do
      let first ← operand? (compute? depth) component
      let (value, rest) ← product? (compute? depth) first rest
      sum? (compute? depth) rest.length value rest

def maxDepth : Nat := 500

def measure (kind : Kind) : Grammar Sum := Grammar.satisfying fun
  | .token (.number value unit) =>
    let unit := if unit.isEmpty then kind.unitless else Text.lower unit
    if kind.has unit then some (.of value.value unit) else none
  | .call name inside =>
    let name := Text.lower name
    if name ∈ ["calc", "min", "max", "clamp"].map String.toList then
      (callValue? (compute? maxDepth) name inside).filter fun sum => sum.units.all kind.has
    else none
  | _ => none

/-- A number with a unit, without the unit if it is a length of zero. -/
def quantityText (size : Rat) (unit : Text) : Text :=
  if size = 0 ∧ isLength unit then ['0'] else Numeral.text size ++ unit

/-- An angle. Radians are written in degrees. -/
def angleText (size : Rat) (unit : Text) : Text :=
  match String.ofList unit, degrees? unit with
  | "rad", some degrees => Numeral.text (size * degrees) ++ "deg"
  | _, _ => Numeral.text size ++ unit

/-- A time in seconds or milliseconds: seconds are shorter for a tenth and more. -/
def timeText (size : Rat) (unit : Text) : Text :=
  let inUnit (size : Rat) (unit : String) : Text := Numeral.text size ++ unit.toList
  if unit = ['s'] then
    if 0 < size ∧ size < 1 / 10 then inUnit (size * 1000) "ms" else inUnit size "s"
  else if size = 0 ∨ 100 ≤ size then inUnit (size / 1000) "s"
  else inUnit size "ms"

def unitText (size : Rat) (unit : Text) : Text :=
  if (degrees? unit).isSome then angleText size unit
  else if (seconds? unit).isSome then timeText size unit
  else quantityText size unit

def Sum.text : Sum → Text
  | [⟨size, .unit unit⟩] => unitText size unit
  | [⟨1, .call text _⟩] => text
  | sum => "calc(" ++ sum.termsText ++ [')']

def text (kind : Kind) : Grammar Text := return (← measure kind).text

def length : Grammar Text := text .length

def lengthPercentage : Grammar Text := text .lengthPercentage

def percentage : Grammar Text := text .percentage

def number : Grammar Text := text .number

def time : Grammar Text := text .time

def angle : Grammar Text := text .angle

def plainAngle : Grammar Text := do
  match ← optional Grammar.number with
  | some value => if value = 0 then return ['0'] else failure
  | none =>
    let sum ← measure .angle
    return if sum.isZero then ['0'] else sum.text

def lengthPercentageOrAuto : Grammar Text := Grammar.word "auto" <|> lengthPercentage

def integer : Grammar Text := return Text.ofInt (← Grammar.integer)

/-- A number, or a share that stands for one. -/
def share : Grammar Rat := do
  match ← measure .number <|> measure .percentage with
  | [⟨size, .unit ['%']⟩] => return size / 100
  | [⟨size, .unit _⟩] => return size
  | _ => failure

def shareText : Grammar Text := return Numeral.text (← share)

def isZeroText (text : Text) : Bool := text ∈ ["0", "0%"].map String.toList

end Measure

end ComponentPack.Stylesheet
