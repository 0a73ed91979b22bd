import ComponentPack.Files.Disk
import ComponentPack.Host.Shell.Expression
import ComponentPack.Host.Shell.Report
import ComponentPack.Text.Utf8

/-!
Tests of words and files: the commands `test` and `[`.
-/

namespace ComponentPack.Host

open Files

namespace Test

inductive Arity where
  | one
  | two
  | join
  | negation
  | paren
deriving DecidableEq, Repr

def arity? (word : Text) : Option Arity :=
  match String.ofList word with
  | "!" => some .negation
  | "-a" | "-o" => some .join
  | "(" | ")" => some .paren
  | "=" | "==" | "!=" | "<" | ">" | "-eq" | "-ne" | "-gt" | "-ge" | "-lt" | "-le" | "-nt"
  | "-ot" | "-ef" => some .two
  | text =>
    if text ∈ ["-b", "-c", "-d", "-e", "-f", "-g", "-h", "-k", "-L", "-n", "-O", "-p", "-r", "-s",
      "-S", "-t", "-u", "-w", "-x", "-z", "-G"] then some .one
    else none

/-- What the first of some words is in a test: an operator where one can stand. -/
def operatorAt (words : List Text) : Option Arity :=
  match words with
  | [] => none
  | word :: rest =>
    match arity? word, rest with
    | some .one, [] => none
    | some .one, [_] => some .one
    | some .one, next :: _ => if arity? next = some .two then none else some .one
    | some .paren, [] => if word = ['('] then none else some .paren
    | arity?, _ => arity?

def ofFile (disk : Disk) (operator file : Text) : Bool :=
  let path : Path := ⟨Text.gather file⟩
  let isOfLink : Bool := operator = "-h" ∨ operator = "-L"
  let followed := disk.resolve (if isOfLink then .entry else .target) path
  if file = "/dev/null" then
    operator ∈ ["-e", "-c", "-r", "-w", "-O", "-G"].map String.toList
  else match String.ofList operator, followed with
  | "-e", .ok (.present _ _) | "-r", .ok (.present _ _) | "-w", .ok (.present _ _)
  | "-O", .ok (.present _ _) | "-G", .ok (.present _ _) => true
  | "-f", .ok (.present _ (.file _)) => true
  | "-d", .ok (.present _ .directory) | "-x", .ok (.present _ .directory) => true
  | "-s", .ok (.present _ (.file content)) => 0 < content.size
  | "-s", .ok (.present _ .directory) => true
  | "-h", .ok (.present _ (.link _)) | "-L", .ok (.present _ (.link _)) => true
  | _, _ => false

def ofOne (disk : Disk) (operator word : Text) : Bool :=
  match String.ofList operator with
  | "-n" => !word.isEmpty
  | "-z" => word.isEmpty
  | _ => ofFile disk operator word

def place? (disk : Disk) (file : Text) : Option Location :=
  match disk.resolve .target ⟨Text.gather file⟩ with
  | .ok (.present location _) => some location
  | _ => none

def ofTwo (disk : Disk) (operator a b : Text) : Except Text Bool :=
  let number (word : Text) : Except Text Int :=
    let (isNegative, digits) : Bool × Text := match Expression.stripped word with
      | '-' :: digits => (true, digits)
      | '+' :: digits => (false, digits)
      | digits => (false, digits)
    match Expression.digits? 10 digits with
    | some value =>
      let exact : Int := if isNegative then -value else value
      if Expression.clamp exact = exact then .ok exact else .error word
    | none => .error word
  let compare (holds : Int → Int → Bool) : Except Text Bool :=
    match number a, number b with
    | .ok x, .ok y => .ok (holds x y)
    | .error e, _ | _, .error e => .error ("Illegal number: " ++ e)
  match String.ofList operator with
  | "=" | "==" => .ok (a = b)
  | "!=" => .ok (a ≠ b)
  | "<" => .ok (decide (a < b))
  | ">" => .ok (decide (b < a))
  | "-eq" => compare fun x y => x = y
  | "-ne" => compare fun x y => x ≠ y
  | "-gt" => compare fun x y => y < x
  | "-ge" => compare fun x y => y ≤ x
  | "-lt" => compare fun x y => x < y
  | "-le" => compare fun x y => x ≤ y
  | "-ef" => .ok (place? disk a = place? disk b && (place? disk a).isSome)
  | _ => .ok false

/-- What a part of a test comes to, and the words from its last one on. -/
abbrev Tested := Except Text (Bool × List Text)

mutual

def anyOf (disk : Disk) : Nat → List Text → Tested
  | 0, words => .ok (false, words)
  | fuel + 1, words => do
    let (value, last) ← allOf disk fuel words
    match last with
    | _ :: ['-', 'o'] :: rest =>
      let (other, last) ← anyOf disk fuel rest
      return (value || other, last)
    | _ => return (value, last)

def allOf (disk : Disk) : Nat → List Text → Tested
  | 0, words => .ok (false, words)
  | fuel + 1, words => do
    let (value, last) ← one disk fuel words
    match last with
    | _ :: ['-', 'a'] :: rest =>
      let (other, last) ← allOf disk fuel rest
      return (value && other, last)
    | _ => return (value, last)

def one (disk : Disk) : Nat → List Text → Tested
  | 0, words => .ok (false, words)
  | fuel + 1, words =>
    match operatorAt words, words with
    | _, [] => .ok (false, [])
    | some .negation, _ :: rest =>
      if rest.isEmpty then .ok (true, words)
      else (one disk fuel rest).map fun (value, last) => (!value, last)
    | some .paren, _ :: rest =>
      if rest.head? = some [')'] then .ok (false, rest)
      else
        match anyOf disk fuel rest with
        | .error e => .error e
        | .ok (value, last) =>
          match last with
          | _ :: [')'] :: rest => .ok (value, [')'] :: rest)
          | _ => .error "closing paren expected"
    | some .one, operator :: rest =>
      match rest with
      | [] => .error (operator ++ ": argument expected")
      | word :: _ => .ok (ofOne disk operator word, rest)
    | _, word :: rest =>
      match operatorAt rest, rest with
      | some .two, operator :: other :: rest =>
        (ofTwo disk operator word other).map fun value => (value, other :: rest)
      | some .two, [operator] => .error (operator ++ ": argument expected")
      | _, _ => .ok (!word.isEmpty, words)

end

def whole (disk : Disk) (words : List Text) : Except Text Bool := do
  match words with
  | [] => return false
  | [a, operator, b] =>
    if arity? operator = some .two then
      return ← ofTwo disk operator a b
  | _ => pure ()
  let (value, last) ← anyOf disk (4 * words.length + 4) words
  match last with
  | word :: _ :: _ =>
    .error ((if word.isEmpty then [] else word ++ ": ".toList) ++ "unexpected operator".toList)
  | _ => return value

def test (disk : Disk) (words : List Text) : Report :=
  match whole disk words with
  | .error complaint => .refusal 2 complaint
  | .ok value => { code := if value then 0 else 1 }

def bracket (disk : Disk) (words : List Text) : Report :=
  if words.getLast? = some [']'] then test disk words.dropLast
  else .refusal 2 "missing ]"

end Test

end ComponentPack.Host
