import ComponentPack.Stylesheet.Property.Box

/-!
Properties of borders and outlines.
-/

namespace ComponentPack.Stylesheet

open Grammar Stylesheet.Measure

namespace Property

namespace Border

def styleWords : List String :=
  ["none", "hidden", "inset", "groove", "outset", "ridge", "dotted", "dashed", "solid", "double"]

def style : Grammar Text := oneOf styleWords

def width : Grammar Text := oneOf ["thin", "medium", "thick"] <|> length

def line (style : Grammar Text) : Grammar Text :=
  shorthand "none" [("medium", width), ("none", style), ("currentcolor", Color.grammar)]

def outlineStyle : Grammar Text := oneOf ("auto" :: styleWords)

/-- The radii of four corners. Those after a slash are vertical, if they are others. -/
def radius : Grammar Text := do
  let across ← boxText lengthPercentage
  match ← optional (mark '/') with
  | none => return across
  | some _ =>
    let down ← boxText lengthPercentage
    return if down = across then across else across ++ '/' :: down

/-- A number or a share for each side of a picture, and whether its middle is filled. -/
def slice : Grammar Text := do
  let early ← optional (word "fill")
  let offsets ← boxText (Measure.number <|> Measure.percentage)
  let late ← if early.isNone then optional (word "fill") else pure none
  return if early.isSome ∨ late.isSome then offsets ++ " fill" else offsets

def imageWidth : Grammar Text :=
  boxText (Measure.number <|> Measure.lengthPercentageOrAuto)

def imageRepeat : Grammar Text :=
  pair (oneOf ["stretch", "repeat", "round", "space"])

/-- A slice, and after slashes a width and an outset. -/
def sliced : Grammar Text := do
  let slice ← slice
  match ← optional (mark '/') with
  | none => return slice
  | some _ =>
    let width := (← optional imageWidth).getD ['1']
    match ← optional (mark '/') with
    | none => return if width = ['1'] then slice else slice ++ '/' :: width
    | some _ =>
      let outset ← boxText Box.lengthOrNumber
      return if outset = ['0'] then if width = ['1'] then slice else slice ++ '/' :: width
        else slice ++ '/' :: (if width = ['1'] then [] else width) ++ '/' :: outset

def picture : Grammar Text :=
  shorthand "none" [("none", Image.grammar), ("100%", sliced), ("stretch", imageRepeat)]

def lines : List String :=
  ["border", "border-top", "border-right", "border-bottom", "border-left", "border-block",
    "border-block-start", "border-block-end", "border-inline", "border-inline-start",
    "border-inline-end"]

def corners : List String :=
  ["top-left", "top-right", "bottom-right", "bottom-left", "start-start", "start-end", "end-start",
    "end-end"].map fun corner => "border-" ++ corner ++ "-radius"

def grammars : List (String × Grammar Text) :=
  [("outline", line outlineStyle), ("outline-color", Color.grammar),
    ("outline-style", outlineStyle), ("outline-width", width),
    ("border-color", boxText Color.grammar), ("border-style", boxText style),
    ("border-width", boxText width), ("border-radius", radius),
    ("border-spacing", pair length), ("border-image-source", Image.grammar),
    ("border-image-slice", slice), ("border-image-width", imageWidth),
    ("border-image-outset", boxText Box.lengthOrNumber),
    ("border-image-repeat", imageRepeat), ("border-image", picture)] ++
  same lines (line style) ++
  same corners (pair lengthPercentage) ++
  same (sideNames "border-" "-color") Color.grammar ++
  same (sideNames "border-" "-style") style ++
  same (sideNames "border-" "-width") width ++
  same ["border-block-color", "border-inline-color"] (pair Color.grammar) ++
  same ["border-block-style", "border-inline-style"] (pair style) ++
  same ["border-block-width", "border-inline-width"] (pair width)

end Border

end Property

end ComponentPack.Stylesheet
