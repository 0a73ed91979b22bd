import ComponentPack.Stylesheet.Color
import ComponentPack.Stylesheet.Position

/-!
Pictures: addresses, and gradients between colours.
-/

namespace ComponentPack.Stylesheet

open Grammar

namespace Image

def address : Grammar Text := satisfying fun
  | .token (.address text) => some (Token.addressText text)
  | .call name inside =>
    match String.ofList (Text.lower name), Component.solid inside with
    | "url", [.token (.quoted text)] => some (Token.addressText text)
    | _, _ => none
  | _ => none

/-- A step of a gradient: a colour and a place for it, or a place between two colours. -/
inductive Step where
  | color (color : Text) (place : Option Measure.Sum)
  | hint (place : Measure.Sum)
deriving DecidableEq, Repr

def steps (place : Grammar Measure.Sum) : Grammar (List Step) :=
  (do
    let color ← Color.grammar
    let first? ← optional place
    let second? ← if first?.isSome then optional place else pure none
    return .color color first? :: second?.toList.map fun second => .color color (some second)) <|>
  do return [.hint (← place)]

/-- Steps with commas between them. A second place follows its colour, and a hint in the middle is
not written. -/
def stepTexts : List Step → List Text
  | [] => []
  | .color color (some place) :: .color next (some second) :: rest =>
    if color = next then spaced [color, place.text, second.text] :: stepTexts rest
    else spaced [color, place.text] :: stepTexts (.color next (some second) :: rest)
  | .color color place :: rest =>
    spaced (color :: place.toList.map Measure.Sum.text) :: stepTexts rest
  | .hint place :: rest =>
    if place.text = Axis.half then stepTexts rest else place.text :: stepTexts rest

/-- A place seen from the other end, if it is a share. -/
def otherEnd? : Measure.Sum → Option Measure.Sum
  | [⟨size, .unit ['%']⟩] => some (.of (100 - size) ['%'])
  | _ => none

def Step.turned? : Step → Option Step
  | color name none => some (.color name none)
  | color name (some place) => (otherEnd? place).map fun place => .color name (some place)
  | hint place => (otherEnd? place).map .hint

/-- An angle, in degrees if it goes up or down. -/
def angleText : Measure.Sum → Text
  | [⟨size, .unit unit⟩] =>
    let degrees := size * (Measure.degrees? unit).getD 1
    if degrees = 0 ∨ degrees = 180 then Numeral.text degrees ++ "deg"
    else Measure.unitText size unit
  | sum => sum.text

def direction : Grammar Text :=
  (do return angleText (← Measure.measure .angle)) <|>
  (do if (← number) = 0 then return "0deg" else failure) <|>
  do
    let _ ← word "to"
    let sides := [oneOf Position.vertical, oneOf Position.horizontal]
    match ← anyOrder sides with
    | [some vertical, some horizontal] => return spaced ["to", vertical, horizontal]
    | [some side, none] | [none, some side] => return sideAngle side
    | _ => failure
where
  sideAngle (side : Text) : Text :=
    match String.ofList side with
    | "top" => "0deg"
    | "right" => "90deg"
    | "bottom" => "180deg"
    | _ => "270deg"

def extents : List String :=
  ["closest-side", "farthest-side", "closest-corner", "farthest-corner"]

/-- The shape of a round gradient: a circle or an ellipse with an extent or with its sizes. The
usual one is empty. -/
def roundShape : Grammar Text := do
  let size : Grammar Text := do
    let first ← Measure.lengthPercentage
    return spaced (first :: (← optional Measure.lengthPercentage).toList)
  let taken ← anyOrder
    [oneOf ["circle", "ellipse"], oneOf extents <|> size]
  match taken.map fun text? => text?.map String.ofList with
  | [none, none] | [some "ellipse", none] | [some "ellipse", some "farthest-corner"]
  | [none, some "farthest-corner"] => return []
  | [some "circle", none] | [some "circle", some "farthest-corner"] => return "circle"
  | [some "circle", some size] =>
    return if size ∈ extents then "circle " ++ size.toList else size.toList
  | [_, some size] => return size.toList
  | _ => failure

/-- The center of a gradient after `at`, which is empty in the middle. -/
def center : Grammar Text := do
  match ← optional (word "at") with
  | none => return []
  | some _ =>
    let position ← Position.grammar
    return if position.x.isCenter ∧ position.y.isCenter then []
      else "at " ++ position.text

def roundLead : Grammar Text := do
  return spaced ([← roundShape, ← center].filter fun text => !text.isEmpty)

def conicLead : Grammar Text := do
  let angle ← (do
    let _ ← word "from"
    let angle ← Measure.plainAngle
    return if angle = ['0'] then [] else "from " ++ angle) <|> pure []
  return spaced ([angle, ← center].filter fun text => !text.isEmpty)

def divided? (lead : Grammar Text) (place : Grammar Measure.Sum) (inside : List Component) :
    Option (Option Text × List Step) := do
  let rows := Component.parts ',' inside
  let isEmpty := rows.head?.all fun row => (Component.solid row).isEmpty
  let lead? := if isEmpty then none else rows.head?.bind (whole? lead)
  let steps ← (if lead?.isSome then rows.drop 1 else rows).mapM (whole? (steps place))
  if steps.isEmpty then none else return (lead?, steps.flatten)

/-- A gradient in a line. It goes down if nothing else is said, and one that goes up goes down from
the other end if all places are shares. -/
def linear? (inside : List Component) : Option (List Text) := do
  let (lead?, steps) ← divided? direction (Measure.measure .lengthPercentage) inside
  let lead := lead?.getD "180deg"
  if lead = "180deg" then return stepTexts steps
  match steps.reverse.mapM Step.turned? with
  | some turned =>
    return if lead = "0deg" then stepTexts turned else lead :: stepTexts steps
  | none => return lead :: stepTexts steps

/-- A gradient around a point. The usual lead is empty. -/
def around? (lead : Grammar Text) (place : Measure.Kind) (inside : List Component) :
    Option (List Text) := do
  let (lead?, steps) ← divided? lead (Measure.measure place) inside
  return (lead?.filter fun text => !text.isEmpty).toList ++ stepTexts steps

def gradient : Grammar Text := satisfying fun
  | .call name inside =>
    let name := Text.lower name
    let plain := (Text.cut? "repeating-" name).elim name Prod.snd
    let texts? := match String.ofList plain with
      | "linear-gradient" => linear? inside
      | "radial-gradient" => around? roundLead .lengthPercentage inside
      | "conic-gradient" => around? conicLead .anglePercentage inside
      | _ => none
    texts?.map (callText (String.ofList name))
  | _ => none

def grammar : Grammar Text := word "none" <|> address <|> gradient

end Image

end ComponentPack.Stylesheet
