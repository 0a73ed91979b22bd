import ComponentPack.Toml.Value

/-!
Numbers, dates and times of TOML.
-/

namespace ComponentPack.Toml

/-- Reads digits, between which single underscores may stand. -/
def digitsAfter (isDigit : Char → Bool) : Text → Option (Text × Text)
  | [] => some ([], [])
  | ['_'] => none
  | '_' :: c :: rest =>
    if isDigit c then (digitsAfter isDigit rest).map fun (digits, rest) => (c :: digits, rest)
    else none
  | c :: rest =>
    if isDigit c then (digitsAfter isDigit rest).map fun (digits, rest) => (c :: digits, rest)
    else some ([], c :: rest)

def digits? (isDigit : Char → Bool) : Text → Option (Text × Text)
  | [] => none
  | c :: rest =>
    if isDigit c then (digitsAfter isDigit rest).map fun (digits, rest) => (c :: digits, rest)
    else none

def sign : Text → Bool × Text
  | '-' :: rest => (true, rest)
  | '+' :: rest => (false, rest)
  | text => (false, text)

/-- Reads a decimal number: whether it is negative, its digits, and the rest. Only zero begins with
a zero. -/
def decimal? (text : Text) : Option (Bool × Text × Text) :=
  let (negative, text) := sign text
  match text with
  | '0' :: rest => some (negative, ['0'], rest)
  | text => (digits? Char.isDigit text).map fun (digits, rest) => (negative, digits, rest)

def valueOf (base : Nat) (digits : Text) : Nat :=
  digits.foldl (fun n c =>
    n * base + if c.isDigit then c.toNat - '0'.toNat else c.toLower.toNat - 'a'.toNat + 10) 0

/-- Integers have 64 bits, one of them for the sign. -/
def integerOf (negative : Bool) (magnitude : Nat) : Option Value :=
  if magnitude < 2 ^ (63 : Nat) ∨ negative ∧ magnitude = 2 ^ (63 : Nat) then
    some (.integer (if negative then -magnitude else magnitude))
  else none

def isHexDigit (c : Char) : Bool :=
  c.isDigit || ('a' ≤ c && c ≤ 'f') || ('A' ≤ c && c ≤ 'F')

def basedInteger? (base : Nat) (isDigit : Char → Bool) (text : Text) : Option (Value × Text) :=
  match digits? isDigit text with
  | none => none
  | some (digits, rest) => (integerOf false (valueOf base digits)).map fun value => (value, rest)

def integer? : Text → Option (Value × Text)
  | '0' :: 'x' :: rest => basedInteger? 16 isHexDigit rest
  | '0' :: 'o' :: rest => basedInteger? 8 (fun c => '0' ≤ c && c ≤ '7') rest
  | '0' :: 'b' :: rest => basedInteger? 2 (fun c => c == '0' || c == '1') rest
  | text =>
    match decimal? text with
    | none => none
    | some (negative, digits, rest) =>
      (integerOf negative (valueOf 10 digits)).map fun value => (value, rest)

def exponent? (text : Text) : Option (Bool × Text × Text) :=
  let (negative, text) := sign text
  (digits? Char.isDigit text).map fun (digits, rest) => (negative, digits, rest)

/-- Whether a decimal number is too large for 64 bits: at least half a unit above the greatest
value. The number is that of the digits, times a power of ten. -/
def overflows (digits : Text) (exponent : Int) : Bool :=
  let digits := digits.dropWhile (· == '0')
  if digits.isEmpty then false
  else
    let size := digits.length + exponent
    if size < 300 then false
    else if 320 < size then true
    else
      let bound := (2 ^ (54 : Nat) - 1) * 2 ^ (970 : Nat)
      match exponent with
      | .ofNat e => bound ≤ valueOf 10 digits * 10 ^ e
      | .negSucc e => bound * 10 ^ (e + 1) ≤ valueOf 10 digits

/-- A float, unless it is positive and too large. -/
def floatOf (negative : Bool) (whole fraction : Text) (exponent : Option (Bool × Text)) :
    Option Value :=
  let power : Int := match exponent with
    | none => 0
    | some (true, digits) => -(valueOf 10 digits : Int)
    | some (false, digits) => valueOf 10 digits
  if !negative ∧ overflows (whole ++ fraction) (power - fraction.length) then none
  else
    some (.float ((if negative then ['-'] else []) ++ whole ++
      (if fraction.isEmpty then [] else '.' :: fraction) ++
      match exponent with
      | none => []
      | some (true, digits) => "e-" ++ digits
      | some (false, digits) => 'e' :: digits))

/-- Reads a float: a number with a fraction, an exponent, or both. -/
def float? (text : Text) : Option (Value × Text) :=
  match decimal? text with
  | none =>
    let (negative, rest) := sign text
    let minus := if negative then ['-'] else []
    match rest with
    | 'i' :: 'n' :: 'f' :: rest => some (.float (minus ++ "inf"), rest)
    | 'n' :: 'a' :: 'n' :: rest => some (.float (minus ++ "nan"), rest)
    | _ => none
  | some (negative, whole, rest) =>
    let (fraction?, rest) : Option Text × Text :=
      match rest with
      | '.' :: rest =>
        match digits? Char.isDigit rest with
        | some (fraction, rest) => (some fraction, rest)
        | none => (none, ['.'])
      | rest => (some [], rest)
    match fraction?, rest with
    | none, _ => none
    | some fraction, 'e' :: rest | some fraction, 'E' :: rest =>
      match exponent? rest with
      | none => none
      | some (down, digits, rest) =>
        (floatOf negative whole fraction (some (down, digits))).map fun value => (value, rest)
    | some [], _ => none
    | some fraction, rest =>
      (floatOf negative whole fraction none).map fun value => (value, rest)

def fixed? (count : Nat) (text : Text) : Option (Nat × Text) :=
  let digits := text.take count
  if digits.length = count ∧ digits.all Char.isDigit then
    some (valueOf 10 digits, text.drop count)
  else none

def inRange? (least greatest : Nat) (text : Text) : Option (Nat × Text) :=
  (fixed? 2 text).filter fun (n, _) => least ≤ n ∧ n ≤ greatest

def after? (mark : Char) : Text → Option Text
  | [] => none
  | c :: rest => if c = mark then some rest else none

def isLeap (year : Nat) : Bool := year % 4 = 0 && (year % 100 ≠ 0 || year % 400 = 0)

def daysIn (year month : Nat) : Nat :=
  if month = 2 then if isLeap year then 29 else 28
  else if month = 4 ∨ month = 6 ∨ month = 9 ∨ month = 11 then 30
  else 31

def date? (text : Text) : Option Text := do
  let (year, text) ← fixed? 4 text
  let text ← after? '-' text
  let (month, text) ← inRange? 1 12 text
  let text ← after? '-' text
  let (_, text) ← inRange? 1 (daysIn year month) text
  return text

def skipFraction (text : Text) : Text :=
  match text with
  | '.' :: c :: rest => if c.isDigit then rest.dropWhile Char.isDigit else text
  | text => text

/-- What follows a time of day. A minute may have a leap second. -/
def time? (text : Text) : Option Text := do
  let (_, text) ← inRange? 0 23 text
  let text ← after? ':' text
  let (_, text) ← inRange? 0 59 text
  let text ← after? ':' text
  let (_, text) ← inRange? 0 60 text
  return skipFraction text

def skipOffset (text : Text) : Option Text :=
  match text with
  | 'Z' :: rest | 'z' :: rest => some rest
  | '+' :: rest | '-' :: rest => do
    let (_, rest) ← inRange? 0 23 rest
    let rest ← after? ':' rest
    let (_, rest) ← inRange? 0 59 rest
    return rest
  | text => some text

/-- What follows a date, a date with a time, or a time. -/
def afterDateTime? (text : Text) : Option Text :=
  match date? text with
  | none => time? text
  | some rest =>
    match rest with
    | 'T' :: later | 't' :: later => (time? later).bind skipOffset
    | ' ' :: later =>
      match time? later with
      | some later => skipOffset later
      | none => some rest
    | rest => some rest

def dateTime? (text : Text) : Option (Value × Text) :=
  (afterDateTime? text).map fun rest =>
    (.dateTime (text.take (text.length - rest.length)), rest)

def number? (text : Text) : Option (Value × Text) :=
  (dateTime? text).or ((float? text).or (integer? text))

end ComponentPack.Toml
