import ComponentPack.Text.Basic

/-!
Escapes in what a shell writes, and the command `echo`. Text is bytewise, so an octal number stands
for one byte.
-/

namespace ComponentPack.Host.Escape

def letter? : Char → Option Char
  | '\\' => some '\\'
  | 'a' => some '\x07'
  | 'b' => some '\x08'
  | 'e' => some '\x1b'
  | 'f' => some '\x0c'
  | 'n' => some '\n'
  | 'r' => some '\r'
  | 't' => some '\t'
  | 'v' => some '\x0b'
  | _ => none

def isOctal (c : Char) : Bool := '0' ≤ c && c ≤ '7'

def ofOctal (digits : Text) : Char :=
  Char.ofNat (digits.foldl (fun value c => value * 8 + (c.toNat - '0'.toNat)) 0 % 256)

/-- Reads what follows a backslash: the character that is meant, and how many it is written with.
Where none is meant, the backslash stands for itself. -/
def read (text : Text) : Char × Nat :=
  let digits := (text.take 3).takeWhile isOctal
  if digits.isEmpty then
    match text.head?.bind letter? with
    | some meant => (meant, 1)
    | none => ('\\', 0)
  else (ofOctal digits, digits.length)

/-- Reads what follows a backslash in a word: an octal number may have a zero in front. -/
def readInWord (text : Text) : Char × Nat :=
  match text with
  | '0' :: rest =>
    let digits := (rest.take 3).takeWhile isOctal
    (ofOctal digits, digits.length + 1)
  | text => read text

def meantFrom : Nat → Text → Text × Bool
  | 0, _ | _, [] => ([], false)
  | _, '\\' :: 'c' :: _ => ([], true)
  | size + 1, '\\' :: rest =>
    let (c, length) := readInWord rest
    let (text, isCut) := meantFrom size (rest.drop length)
    (c :: text, isCut)
  | size + 1, c :: rest =>
    let (text, isCut) := meantFrom size rest
    (c :: text, isCut)

def meant (text : Text) : Text × Bool := meantFrom text.length text

def echo (words : List Text) : Text :=
  let (ending, words) := match words with
    | ['-', 'n'] :: words => ([], words)
    | words => (['\n'], words)
  let (text, isCut) := meant (List.intercalate [' '] words)
  text ++ if isCut then [] else ending

end ComponentPack.Host.Escape
