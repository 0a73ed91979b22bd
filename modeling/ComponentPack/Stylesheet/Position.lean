import ComponentPack.Stylesheet.Measure

/-!
Places in a box: a side, the center or a length for each of two axes.
-/

namespace ComponentPack.Stylesheet

open Grammar Stylesheet.Measure

inductive Axis where
  | center
  | length (text : Text)
  | side (side : Text) (offset : Option Text)
deriving DecidableEq, Repr

namespace Axis

def half : Text := "50%"

def isCenter (axis : Axis) : Bool := axis = center || axis = length half

def isZero : Axis → Bool
  | length text => isZeroText text
  | _ => false

def grammar (sides : List String) : Grammar Axis :=
  (do let _ ← word "center"; return center) <|>
    (do return length (← lengthPercentage)) <|>
    do return side (← oneOf sides) (← optional lengthPercentage)

def text : Axis → Text
  | center => half
  | length text => text
  | side name none => name
  | side name (some offset) => spaced [name, offset]

def sideText (name : Text) : Text :=
  if name ∈ ["left", "top"].map String.toList then ['0'] else "100%"

/-- The distance from the beginning of an axis, which is at a side. -/
def distance? (first : String) : Axis → Option Text
  | center => some half
  | length text => some (plain text)
  | side name offset => if name = first.toList then some (plain (offset.getD ['0'])) else none
where
  plain (text : Text) : Text := if isZeroText text then ['0'] else text

end Axis

structure Position where
  x : Axis
  y : Axis
deriving DecidableEq, Repr

namespace Position

def horizontal : List String := ["left", "right"]

def vertical : List String := ["top", "bottom"]

def middle : Position := ⟨.center, .center⟩

def afterCenter : Grammar Position :=
  (do return ⟨.center, ← Axis.grammar vertical⟩) <|>
    (do return ⟨← Axis.grammar horizontal, .center⟩) <|> pure middle

/-- A vertical place after a length: a side without a distance, a length, or the center. -/
def afterLength (x : Text) : Grammar Position :=
  (do return ⟨.length x, .side (← oneOf vertical) none⟩) <|>
    (do return ⟨.length x, .length (← lengthPercentage)⟩) <|> do
      let _ ← optional (word "center")
      return ⟨.length x, .center⟩

/-- A vertical place after a side and a distance, which may be a vertical length. -/
def afterSide (name : Text) (offset : Option Text) : Grammar Position :=
  (do
    let _ ← word "center"
    return ⟨.side name offset, .center⟩) <|>
  (do
    let side ← oneOf vertical
    return ⟨.side name offset, .side side (← optional lengthPercentage)⟩) <|>
  pure ⟨.side name none, (offset.map Axis.length).getD .center⟩

def verticalFirst : Grammar Position := do
  let side ← oneOf vertical
  (do
    let offset ← optional lengthPercentage
    let x ←
      (do return .side (← oneOf horizontal) (← optional lengthPercentage)) <|>
        (do let _ ← word "center"; return .center)
    return ⟨x, .side side offset⟩) <|> pure ⟨.center, .side side none⟩

def grammar : Grammar Position := do
  match ← optional (Axis.grammar horizontal) with
  | some .center => afterCenter
  | some (.length x) => afterLength x
  | some (.side name offset) => afterSide name offset
  | none => verticalFirst

def text (position : Position) : Text :=
  let ⟨x, y⟩ := position
  match x, y with
  | .side name (some _), .length l =>
    if name ≠ "left" then
      if l = Axis.half then spaced [x.text, "center"]
      else spaced [x.text, "top", l]
    else other x y
  | .side name (some _), .center =>
    if name ≠ "left" then spaced [x.text, "center"] else other x y
  | .length l, .side name (some _) =>
    if name ≠ "top" then spaced ["left", l, y.text] else other x y
  | x, y => other x y
where
  other (x y : Axis) : Text :=
    if x.isCenter ∧ y.isCenter then Axis.half
    else
      match x, y with
      | .length l, y => if y.isCenter then l else general (.length l) y
      | .side name none, .side other none =>
        spaced [Axis.sideText name, Axis.sideText other]
      | .side name none, y => if y.isCenter then Axis.sideText name else general (.side name none) y
      | .center, .side name none => name
      | x, y => general x y
  general (x y : Axis) : Text :=
    match x.isCenter, y with
    | true, .side name none => name
    | _, _ =>
      match x.distance? "left", y.distance? "top" with
      | some x, some y => spaced [x, y]
      | _, _ => spaced [x.text, y.text]

def textOf : Grammar Text := return (← grammar).text

end Position

end ComponentPack.Stylesheet
