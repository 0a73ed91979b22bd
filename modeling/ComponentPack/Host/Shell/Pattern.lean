import ComponentPack.Files.Disk
import ComponentPack.Text.Utf8

/-!
Patterns of names: `*` stands for any text, `?` for one character, and brackets for one of some
characters. A backslash that is not quoted itself protects the character after it.
-/

namespace ComponentPack.Host

open Files

/-- A character of a word, which has no meaning of its own where it is quoted. -/
structure Letter where
  char : Char
  quoted : Bool
deriving DecidableEq, Repr

inductive Wildcard where
  | exactly (c : Char)
  | one
  | any
  /-- One of the characters in some ranges, or none of them. -/
  | among (negated : Bool) (ranges : List (Char × Char))
deriving DecidableEq, Repr

def Wildcard.accepts (wildcard : Wildcard) (c : Char) : Bool :=
  match wildcard with
  | .exactly d => c == d
  | .one | .any => true
  | .among negated ranges => (ranges.any fun (low, high) => low ≤ c && c ≤ high) != negated

abbrev Pattern := List Wildcard

namespace Pattern

def classRanges? (name : Text) : Option (List (Char × Char)) :=
  match String.ofList name with
  | "alnum" => some [('0', '9'), ('A', 'Z'), ('a', 'z')]
  | "alpha" => some [('A', 'Z'), ('a', 'z')]
  | "blank" => some [('\t', '\t'), (' ', ' ')]
  | "cntrl" => some [('\x00', '\x1f'), ('\x7f', '\x7f')]
  | "digit" => some [('0', '9')]
  | "graph" => some [('!', '~')]
  | "lower" => some [('a', 'z')]
  | "print" => some [(' ', '~')]
  | "punct" => some [('!', '/'), (':', '@'), ('[', '\x60'), ('\x7b', '~')]
  | "space" => some [('\t', '\r'), (' ', ' ')]
  | "upper" => some [('A', 'Z')]
  | "xdigit" => some [('0', '9'), ('A', 'F'), ('a', 'f')]
  | _ => none

def class? (letters : List Letter) : Option (List (Char × Char) × List Letter) :=
  let name := letters.takeWhile fun letter => letter.char.isLower
  match letters.drop name.length with
  | ⟨':', _⟩ :: ⟨']', _⟩ :: rest =>
    (classRanges? (name.map (·.char))).map fun ranges => (ranges, rest)
  | _ => none

/-- Passes over a backslash that protects the next letter. -/
def unprotected : List Letter → List Letter
  | ⟨'\\', false⟩ :: letter :: rest => ⟨letter.char, true⟩ :: rest
  | letters => letters

/-- The ranges up to a closing bracket, and what follows it; there are at most so many letters. A
bracket that comes first is one of the characters. -/
def rangesFrom (isFirst : Bool) : Nat → List Letter → Option (List (Char × Char) × List Letter)
  | 0, _ | _, [] => none
  | size + 1, letters =>
    let add (ranges : List (Char × Char)) (rest : List Letter) :
        Option (List (Char × Char) × List Letter) :=
      (rangesFrom false size rest).map fun (others, rest) => (ranges ++ others, rest)
    let one (letters : List Letter) : Option (List (Char × Char) × List Letter) :=
      match unprotected letters with
      | [] => none
      | low :: ⟨'-', false⟩ :: rest =>
        if rest.head? = some ⟨']', false⟩ then add [(low.char, low.char)] (⟨'-', true⟩ :: rest)
        else
          match unprotected rest with
          | [] => none
          | high :: rest => add [(low.char, high.char)] rest
      | letter :: rest => add [(letter.char, letter.char)] rest
    match letters with
    | ⟨']', false⟩ :: rest => if isFirst then one letters else some ([], rest)
    | ⟨'[', _⟩ :: ⟨':', _⟩ :: rest =>
      match class? rest with
      | some (ranges, rest) => add ranges rest
      | none => one letters
    | letters => one letters

def among? (letters : List Letter) : Option (Wildcard × List Letter) :=
  let (negated, letters) : Bool × List Letter := match letters with
    | ⟨'!', false⟩ :: rest => (true, rest)
    | _ => (false, letters)
  (rangesFrom true letters.length letters).map fun (ranges, rest) =>
    (.among negated ranges, rest)

def readFrom : Nat → List Letter → Pattern
  | 0, _ | _, [] => []
  | size + 1, letter :: rest =>
    match letter with
    | ⟨'*', false⟩ => .any :: readFrom size rest
    | ⟨'?', false⟩ => .one :: readFrom size rest
    | ⟨'[', false⟩ =>
      match among? rest with
      | some (wildcard, rest) => wildcard :: readFrom size rest
      | none => .exactly '[' :: readFrom size rest
    | ⟨'\\', false⟩ =>
      match rest with
      | [] => [.exactly '\\']
      | next :: rest => .exactly next.char :: readFrom size rest
    | letter => .exactly letter.char :: readFrom size rest

def read (letters : List Letter) : Pattern := readFrom letters.length letters

def isOpen (pattern : Pattern) : Bool :=
  pattern.any fun
    | .exactly _ => false
    | _ => true

def accepts : Pattern → Text → Bool
  | [], text => text.isEmpty
  | .any :: pattern, [] => accepts pattern []
  | .any :: pattern, c :: text => accepts pattern (c :: text) || accepts (.any :: pattern) text
  | _ :: _, [] => false
  | wildcard :: pattern, c :: text => wildcard.accepts c && accepts pattern text
termination_by pattern text => pattern.length + text.length

/-- What is left of a text without a shortest or longest beginning that a pattern accepts. -/
def cutStart (pattern : Pattern) (longest : Bool) (text : Text) : Text :=
  let sizes := List.range (text.length + 1)
  let sizes := if longest then sizes.reverse else sizes
  match sizes.find? fun size => pattern.accepts (text.take size) with
  | some size => text.drop size
  | none => text

def cutEnd (pattern : Pattern) (longest : Bool) (text : Text) : Text :=
  let sizes := List.range (text.length + 1)
  let sizes := if longest then sizes else sizes.reverse
  match sizes.find? fun size => pattern.accepts (text.drop size) with
  | some size => text.take size
  | none => text

def components : List Letter → List (List Letter)
  | [] => [[]]
  | letter :: rest =>
    if letter.char = '/' then [] :: components rest
    else
      match components rest with
      | [] => [[letter]]
      | first :: others => (letter :: first) :: others

/-- The names of a directory that a pattern accepts. A name with a dot in front needs one in the
pattern. -/
def namesLike (disk : Disk) (directory : Text) (pattern : Pattern) : List Text :=
  match disk.resolve .target ⟨if directory.isEmpty then ['.'] else Text.gather directory⟩ with
  | .ok (.present location .directory) =>
    let names := ['.'] :: ['.', '.'] :: (disk.namesIn location).map Text.spread
    names.filter fun name =>
      pattern.accepts name &&
        (name.head? ≠ some '.' || pattern.head? = some (.exactly '.'))
  | _ => []

/-- The paths that exist and are as some patterns say; `before` is the part of the path that is
known. -/
def pathsLike (disk : Disk) (before : Text) : List (List Letter) → List Text
  | [] => if disk.doesExist ⟨Text.gather before⟩ then [before] else []
  | part :: rest =>
    let pattern := read part
    let names :=
      if pattern.isOpen then namesLike disk before pattern else [part.map (·.char)]
    names.flatMap fun name =>
      pathsLike disk (before ++ name ++ if rest.isEmpty then [] else ['/']) rest

/-- The paths that a word stands for, in their order: the word itself, if it is no pattern or
nothing is as it says. -/
def paths (disk : Disk) (letters : List Letter) : List Text :=
  let plain := letters.map (·.char)
  if (read letters).isOpen then
    match pathsLike disk [] (components letters) with
    | [] => [plain]
    | paths => paths.mergeSort fun a b => decide (a ≤ b)
  else [plain]

end Pattern

end ComponentPack.Host
