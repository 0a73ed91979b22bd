import ComponentPack.Stylesheet.Property.Box

/-!
Properties that move, turn and stretch boxes.
-/

namespace ComponentPack.Stylesheet

open Grammar Stylesheet.Measure

namespace Property

namespace Transform

def arguments? (grammar : Grammar Text) (inside : List Component) : Option (List Text) :=
  (Component.parts ',' inside).mapM (whole? grammar)

def isZero (text : Text) : Bool := isZeroText text

def shifted (x y : Text) : Text :=
  if isZero x ∧ !isZero y then callText "translateY" [y]
  else callText "translate" (x :: if isZero y then [] else [y])

def shifted3 (x y z : Text) : Text :=
  match isZero x, isZero y, isZero z with
  | true, true, false => callText "translateZ" [z]
  | true, true, true => callText "translate" [x, y]
  | _, _, true => shifted x y
  | _, _, false => callText "translate3d" [x, y, z]

def isOne (text : Text) : Bool := text = ['1']

def scaled (x y : Text) : Text :=
  if isOne x ∧ !isOne y then callText "scaleY" [y]
  else if !isOne x ∧ isOne y then callText "scaleX" [x]
  else callText "scale" (x :: if x = y then [] else [y])

def scaled3 (x y z : Text) : Text :=
  if isOne z then scaled x y
  else if isOne x ∧ isOne y then callText "scaleZ" [z]
  else callText "scale3d" [x, y, z]

def rotated (x y z angle : Text) : Text :=
  match String.ofList x, String.ofList y, String.ofList z with
  | "1", "0", "0" => callText "rotateX" [angle]
  | "0", "1", "0" => callText "rotateY" [angle]
  | "0", "0", "1" => callText "rotate" [angle]
  | _, _, _ => callText "rotate3d" [x, y, z, angle]

def skewed (x y : Text) : Text :=
  if isZero x ∧ !isZero y then callText "skewY" [y]
  else callText "skew" (x :: if isZero y then [] else [y])

def function? (name : Text) (inside : List Component) : Option Text :=
  let lengths := arguments? lengthPercentage inside
  let sizes := arguments? shareText inside
  let angles := arguments? Measure.plainAngle inside
  let numbers := arguments? Measure.number inside
  let zero : Text := ['0']
  let call (name : String) (texts : Option (List Text)) (count : Nat) : Option Text :=
    (texts.filter fun texts => texts.length = count).map (callText name)
  match String.ofList name with
  | "translate" =>
    match lengths with
    | some [x] => some (shifted x zero)
    | some [x, y] => some (shifted x y)
    | _ => none
  | "translatex" => call "translate" lengths 1
  | "translatey" => call "translateY" lengths 1
  | "translatez" => call "translateZ" (arguments? length inside) 1
  | "translate3d" =>
    match lengths with
    | some [x, y, z] => some (shifted3 x y z)
    | _ => none
  | "scale" =>
    match sizes with
    | some [x] => some (scaled x x)
    | some [x, y] => some (scaled x y)
    | _ => none
  | "scalex" => call "scaleX" sizes 1
  | "scaley" => call "scaleY" sizes 1
  | "scalez" => call "scaleZ" sizes 1
  | "scale3d" =>
    match sizes with
    | some [x, y, z] => some (scaled3 x y z)
    | _ => none
  | "rotate" | "rotatez" => call "rotate" angles 1
  | "rotatex" => call "rotateX" angles 1
  | "rotatey" => call "rotateY" angles 1
  | "rotate3d" =>
    match arguments? (Measure.number <|> Measure.plainAngle) inside with
    | some [x, y, z, angle] => some (rotated x y z angle)
    | _ => none
  | "skew" =>
    match angles with
    | some [x] => some (skewed x zero)
    | some [x, y] => some (skewed x y)
    | _ => none
  | "skewx" => call "skew" angles 1
  | "skewy" => call "skewY" angles 1
  | "perspective" => call "perspective" (arguments? length inside) 1
  | "matrix" => call "matrix" numbers 6
  | "matrix3d" => call "matrix3d" numbers 16
  | _ => none

def function : Grammar Text := do
  match ← next with
  | .call name inside =>
    match function? (Text.lower name) inside with
    | some text => return text
    | none => failure
  | _ => failure

def functions : Grammar Text :=
  word "none" <|> do return (← repeated function).flatten

def shift : Grammar Text :=
  word "none" <|> do
    let x ← lengthPercentage
    let y := (← optional lengthPercentage).getD ['0']
    let z := (← optional length).getD ['0']
    let rest := if isZero z then [] else [z]
    return spaced (x :: if isZero y ∧ rest.isEmpty then [] else y :: rest)

/-- A turn, around an axis that may be given before or after it. -/
def rotation : Grammar Text :=
  word "none" <|> do
    let named : Grammar (List Text) := do
      match String.ofList (← oneOf ["x", "y", "z"]) with
      | "x" => return [['1'], ['0'], ['0']]
      | "y" => return [['0'], ['1'], ['0']]
      | _ => return [['0'], ['0'], ['1']]
    let numbered : Grammar (List Text) :=
      return [← Measure.number, ← Measure.number, ← Measure.number]
    let angle : Grammar (List Text) := return [← Measure.angle]
    match ← anyOrder [named <|> numbered, angle] with
    | [axis?, some [angle]] =>
      let axis := axis?.getD [['0'], ['0'], ['1']]
      match axis.map String.ofList with
      | ["1", "0", "0"] => return spaced [['x'], angle]
      | ["0", "1", "0"] => return spaced [['y'], angle]
      | ["0", "0", "1"] => return if angle = "0deg" then "none" else angle
      | _ => return spaced (axis ++ [angle])
    | _ => failure

def scaling : Grammar Text :=
  word "none" <|> do
    let x ← shareText
    let y := (← optional shareText).getD x
    let z := (← optional shareText).getD ['1']
    let rest := if isOne z then [] else [z]
    return spaced (x :: if x = y ∧ rest.isEmpty then [] else y :: rest)

def grammars : List (String × Grammar Text) :=
  [("transform", functions), ("transform-origin", Position.textOf),
    ("transform-style", oneOf ["flat", "preserve-3d"]),
    ("transform-box",
      oneOf ["content-box", "border-box", "fill-box", "stroke-box", "view-box"]),
    ("backface-visibility", oneOf ["visible", "hidden"]),
    ("perspective", word "none" <|> length),
    ("perspective-origin", Position.textOf), ("translate", shift), ("rotate", rotation),
    ("scale", scaling)]

end Transform

end Property

end ComponentPack.Stylesheet
