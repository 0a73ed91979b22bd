import ComponentPack.Host.Script.Basic

/-!
Expressions of whole numbers. Numbers have 64 bits, and a result that does not fit loses its high
bits.
-/

namespace ComponentPack.Host

inductive Expression where
  | number (value : Int)
  | named (name : Text)
  | unary (operator : Char) (operand : Expression)
  | binary (operator : Text) (first second : Expression)
  | choice (test yes no : Expression)
  /-- Sets a variable to a value, or to what an operator makes of its value and another one. -/
  | assign (name : Text) (operator : Text) (value : Expression)
deriving DecidableEq, Repr

namespace Expression

inductive Fault where
  | noOperand
  | noEnd
  | noColon
  | noParenthesis
  | zeroDivisor
  | badNumber (text : Text)
deriving DecidableEq, Repr

def Fault.message (expression : Text) : Fault → Text
  | noOperand => about "expecting primary"
  | noEnd => about "expecting EOF"
  | noColon => about "expecting ':'"
  | noParenthesis => about "expecting ')'"
  | zeroDivisor => about "division by zero"
  | badNumber text => "Illegal number: " ++ text
where
  about (reason : String) : Text :=
    "arithmetic expression: " ++ reason.toList ++ ": \"" ++ expression ++ ['"']

def wrap (value : Int) : Int := Int.bmod value (2 ^ (64 : Nat))

def clamp (value : Int) : Int := max (-2 ^ (63 : Nat)) (min value (2 ^ (63 : Nat) - 1))

def digit? (base : Nat) (c : Char) : Option Nat :=
  let value? :=
    if c.isDigit then some (c.toNat - '0'.toNat)
    else if 'a' ≤ c.toLower ∧ c.toLower ≤ 'f' then some (c.toLower.toNat - 'a'.toNat + 10)
    else none
  value?.filter (· < base)

def digits? (base : Nat) (text : Text) : Option Nat :=
  if text.isEmpty then none
  else text.foldl (fun value? c => do return (← value?) * base + (← digit? base c)) (some 0)

/-- The base that the beginning of a number tells, and the digits after that. -/
def based (text : Text) : Nat × Text :=
  match text with
  | '0' :: c :: digit :: rest =>
    if (c = 'x' ∨ c = 'X') ∧ (digit? 16 digit).isSome then (16, digit :: rest) else (8, text)
  | '0' :: _ => (8, text)
  | _ => (10, text)

/-- The digits that come first, with what stands before them, and the number that they make. -/
def leadingNumber (text : Text) : Text × Nat :=
  let (base, rest) := based text
  let digits := rest.takeWhile fun c => (digit? base c).isSome
  (text.take (text.length - rest.length + digits.length), (digits? base digits).getD 0)

def isSpace (c : Char) : Bool := c == ' ' || '\t' ≤ c && c ≤ '\r'

def stripped (text : Text) : Text :=
  ((text.dropWhile isSpace).reverse.dropWhile isSpace).reverse

/-- The number that a text is, where blanks and a sign may stand before it, and blanks after
it. -/
def integer? (text : Text) : Option Int :=
  let (isNegative, rest) : Bool × Text := match stripped text with
    | '-' :: rest => (true, rest)
    | '+' :: rest => (false, rest)
    | rest => (false, rest)
  let (digits, value) := leadingNumber rest
  if digits.isEmpty ∨ digits.length < rest.length then none
  else some (clamp (if isNegative then -value else value))

inductive Token where
  | number (value : Nat)
  | name (name : Text)
  | operator (text : Text)
deriving DecidableEq, Repr

def operators : List Text :=
  ["<<=", ">>=", "<<", ">>", "<=", ">=", "==", "!=", "&&", "||", "+=", "-=", "*=", "/=", "%=",
    "&=", "^=", "|=", "+", "-", "*", "/", "%", "<", ">", "&", "^", "|", "!", "~", "?", ":", "=",
    "(", ")"].map String.toList

/-- The tokens of an expression of at most so many characters. A character without a meaning is an
operator that stands nowhere. -/
def tokensFrom : Nat → Text → List Token
  | 0, _ | _, [] => []
  | size + 1, c :: rest =>
    let text := c :: rest
    if c = ' ' ∨ c = '\t' ∨ c = '\n' then tokensFrom size rest
    else if c.isDigit then
      let (digits, value) := leadingNumber text
      .number value :: tokensFrom size (text.drop digits.length)
    else if Script.isNameStart c then
      let name := text.takeWhile Script.isNamePart
      .name name :: tokensFrom size (text.drop name.length)
    else
      let operator := (operators.find? (·.isPrefixOf text)).getD [c]
      .operator operator :: tokensFrom size (text.drop operator.length)

def strength? (operator : Text) : Option Nat :=
  match String.ofList operator with
  | "||" => some 1
  | "&&" => some 2
  | "|" => some 3
  | "^" => some 4
  | "&" => some 5
  | "==" | "!=" => some 6
  | "<" | ">" | "<=" | ">=" => some 7
  | "<<" | ">>" => some 8
  | "+" | "-" => some 9
  | "*" | "/" | "%" => some 10
  | _ => none

def assigning? (operator : Text) : Option Text :=
  match String.ofList operator with
  | "=" => some []
  | "==" | "!=" | "<=" | ">=" => none
  | _ => if operator.getLast? = some '=' then some operator.dropLast else none

mutual

def whole : Nat → List Token → Except Fault (Expression × List Token)
  | 0, _ => .error .noOperand
  | fuel + 1, tokens => do
    let choice : Except Fault (Expression × List Token) := do
      let (test, rest) ← binaries fuel 1 tokens
      match rest with
      | .operator ['?'] :: rest =>
        let (yes, rest) ← whole fuel rest
        match rest with
        | .operator [':'] :: rest =>
          let (no, rest) ← whole fuel rest
          return (.choice test yes no, rest)
        | _ => .error .noColon
      | _ => return (test, rest)
    match tokens with
    | .name name :: .operator operator :: rest =>
      match assigning? operator with
      | some operator =>
        let (value, rest) ← whole fuel rest
        return (.assign name operator value, rest)
      | none => choice
    | _ => choice

def binaries : Nat → Nat → List Token → Except Fault (Expression × List Token)
  | 0, _, _ => .error .noOperand
  | fuel + 1, least, tokens => do
    let (first, rest) ← operand fuel tokens
    continued fuel least first rest

def continued : Nat → Nat → Expression → List Token → Except Fault (Expression × List Token)
  | 0, _, _, _ => .error .noOperand
  | fuel + 1, least, first, tokens =>
    match tokens with
    | .operator operator :: rest =>
      match strength? operator with
      | some strength =>
        if least ≤ strength then do
          let (second, rest) ← binaries fuel (strength + 1) rest
          continued fuel least (.binary operator first second) rest
        else .ok (first, tokens)
      | none => .ok (first, tokens)
    | _ => .ok (first, tokens)

def operand : Nat → List Token → Except Fault (Expression × List Token)
  | 0, _ => .error .noOperand
  | fuel + 1, tokens =>
    match tokens with
    | .number value :: rest => .ok (.number (clamp value), rest)
    | .name name :: rest => .ok (.named name, rest)
    | .operator ['('] :: rest => do
      let (value, rest) ← whole fuel rest
      match rest with
      | .operator [')'] :: rest => return (value, rest)
      | _ => .error .noParenthesis
    | .operator [c] :: rest =>
      if c = '-' ∨ c = '+' ∨ c = '!' ∨ c = '~' then do
        let (value, rest) ← operand fuel rest
        return (.unary c value, rest)
      else .error .noOperand
    | _ => .error .noOperand

end

def read (text : Text) : Except Fault Expression := do
  let tokens := tokensFrom text.length text
  let (expression, rest) ← whole (4 * tokens.length + 4) tokens
  if rest.isEmpty then return expression else .error .noEnd

def truth (value : Bool) : Int := if value then 1 else 0

def bitwise (operation : Nat → Nat → Nat) (a b : Int) : Int :=
  wrap (operation (a % 2 ^ (64 : Nat)).toNat (b % 2 ^ (64 : Nat)).toNat)

def apply (operator : Text) (a b : Int) : Except Fault Int :=
  match String.ofList operator with
  | "+" => .ok (wrap (a + b))
  | "-" => .ok (wrap (a - b))
  | "*" => .ok (wrap (a * b))
  | "/" => if b = 0 then .error .zeroDivisor else .ok (wrap (Int.tdiv a b))
  | "%" => if b = 0 then .error .zeroDivisor else .ok (wrap (Int.tmod a b))
  | "<<" => .ok (wrap (a * 2 ^ (b % 64).toNat))
  | ">>" => .ok (Int.fdiv a (2 ^ (b % 64).toNat))
  | "<" => .ok (truth (a < b))
  | ">" => .ok (truth (b < a))
  | "<=" => .ok (truth (a ≤ b))
  | ">=" => .ok (truth (b ≤ a))
  | "==" => .ok (truth (a = b))
  | "!=" => .ok (truth (a ≠ b))
  | "&" => .ok (bitwise Nat.land a b)
  | "|" => .ok (bitwise Nat.lor a b)
  | "^" => .ok (bitwise Nat.xor a b)
  | _ => .ok b

abbrev Variables := List (Text × Text)

def valueOf (values : Variables) (name : Text) : Except Fault Int :=
  match values.find? fun (known, _) => known = name with
  | none => .ok 0
  | some (_, text) =>
    match integer? text with
    | some value => .ok value
    | none => if (stripped text).isEmpty then .ok 0 else .error (.badNumber text)

/-- The value of an expression, and the variables after it: those it sets come first. -/
def evaluate (values : Variables) : Expression → Except Fault (Int × Variables)
  | number value => .ok (value, values)
  | named name => do return (← valueOf values name, values)
  | unary operator operand => do
    let (value, values) ← evaluate values operand
    return (match operator with
      | '-' => wrap (-value)
      | '!' => truth (value = 0)
      | '~' => -value - 1
      | _ => value, values)
  | binary operator first second => do
    let (a, values) ← evaluate values first
    if operator = "&&" ∧ a = 0 then return (0, values)
    if operator = "||" ∧ a ≠ 0 then return (1, values)
    let (b, values) ← evaluate values second
    if operator = "&&" ∨ operator = "||" then return (truth (b ≠ 0), values)
    return (← apply operator a b, values)
  | choice test yes no => do
    let (value, values) ← evaluate values test
    if value ≠ 0 then evaluate values yes else evaluate values no
  | assign name operator value => do
    let (b, values) ← evaluate values value
    let result ← if operator.isEmpty then pure b else apply operator (← valueOf values name) b
    return (result, (name, Text.ofInt result) :: values)

end Expression

end ComponentPack.Host
