import ComponentPack.Stylesheet.Color

/-!
Values of which nothing is known. Their tokens are kept, with a single blank for each row of blanks
and for each comment, and none beside marks and after brackets.
-/

namespace ComponentPack.Stylesheet

open Stylesheet.Measure

namespace Plain

inductive Piece where
  | blank
  | text (text : Text)
deriving DecidableEq, Repr

/-- The pieces read so far, the last one first, and whether the last one is a mark, a call or a
closing bracket. -/
structure Progress where
  pieces : List Piece
  isClosed : Bool
deriving DecidableEq, Repr

namespace Progress

def start : Progress := ⟨[], false⟩

def blank (progress : Progress) : Progress :=
  if progress.isClosed then progress else { progress with pieces := .blank :: progress.pieces }

def add (progress : Progress) (text : Text) : Progress := ⟨.text text :: progress.pieces, false⟩

/-- Adds a text after which blanks separate nothing. -/
def close (progress : Progress) (text : Text) : Progress := ⟨.text text :: progress.pieces, true⟩

/-- Adds a mark, which takes the place of a blank before it. -/
def mark (progress : Progress) (c : Char) : Progress :=
  let text := if c = '+' ∨ c = '-' then [' ', c, ' '] else [c]
  match progress.pieces with
  | .blank :: pieces => ⟨.text text :: pieces, true⟩
  | pieces => ⟨.text text :: pieces, true⟩

end Progress

def Piece.written : Piece → Text
  | blank => [' ']
  | text inside => inside

def join (pieces : List Piece) : Text := pieces.flatMap Piece.written

def trimmed (pieces : List Piece) : List Piece :=
  if pieces.length < 2 then pieces
  else
    let pieces := if pieces.head? = some .blank then pieces.drop 1 else pieces
    if pieces.getLast? = some .blank then pieces.dropLast else pieces

/-- A number with a unit. The units of lengths are kept, even for zero. -/
def numberText (value : Numeral) (unit : Text) : Text :=
  let known := Text.lower unit
  if unit = ['%'] then value.keptText ++ unit
  else if isLength known then Numeral.text value.value ++ known
  else if (degrees? known).isSome ∨ (seconds? known).isSome then
    unitText value.value known
  else Numeral.text value.value ++ Token.nameText unit

/-- What is in parentheses after `var`: a name with two hyphens, and after a comma what stands for
it if it has no value. -/
def reference? (pieces : List Component → Option (List Piece)) (inside : List Component) :
    Option Text := do
  let fallback := (inside.dropWhile fun c => !c.isMark ',')
  match Component.solid (inside.take (inside.length - fallback.length)) with
  | [.token (.name text)] =>
    if ['-', '-'].isPrefixOf text then
      match fallback with
      | [] => return "var(" ++ Token.nameText text ++ [')']
      | _ :: fallback =>
        return "var(" ++ Token.nameText text ++ ',' :: join (trimmed (← pieces fallback)) ++
          [')']
    else none
  | _ => none

def add? (pieces : List Component → Option (List Piece)) (progress : Progress) :
    Component → Option Progress
  | .token .blank | .token .comment => some progress.blank
  | .token (.name text) => some (progress.add (Token.nameText text))
  | .token (.atName text) => some (progress.add ('@' :: Token.nameText text))
  | .token (.hash text isName) =>
    match Color.ofDigits? text with
    | some color => some (progress.add color.text)
    | none =>
      let digits := if isName then Token.nameText text else text.flatMap Token.nameChar
      some (progress.add ('#' :: digits))
  | .token (.number value unit) => some (progress.add (numberText value unit))
  | .token (.quoted text) => some (progress.add (Token.quotedText text))
  | .token (.address text) => some (progress.add (Token.addressText text))
  | .token (.mark c) =>
    if c = ':' ∨ c = ';' then some (progress.add [c]) else some (progress.mark c)
  | .token (.fence text) => some (progress.add text)
  | .token (.call _) | .token .broken => none
  | .call name inside =>
    match Color.called? name inside, String.ofList name, Component.solid inside with
    | some color, _, _ => some (progress.add color)
    | none, "url", [.token (.quoted text)] => some (progress.add (Token.addressText text))
    | none, "var", _ => (reference? pieces inside).map progress.close
    | none, _, _ => do
      let inside := join (trimmed (← pieces inside))
      return progress.close (Token.nameText name ++ '(' :: inside ++ [')'])
  | .block opening inside => do
    let closing := if opening = '(' then ')' else if opening = '[' then ']' else '\x7d'
    return progress.close (opening :: join (← pieces inside) ++ [closing])

def pieces? : Nat → List Component → Option (List Piece)
  | 0, _ => none
  | depth + 1, components => do
    let progress ← components.foldlM (add? (pieces? depth)) .start
    return progress.pieces.reverse

def text? (components : List Component) : Option Text :=
  (pieces? maxDepth components).map fun pieces => join (trimmed pieces)

end Plain

end ComponentPack.Stylesheet
