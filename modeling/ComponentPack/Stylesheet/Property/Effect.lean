import ComponentPack.Stylesheet.Property.Background

/-!
Properties of effects on what is shown: filters, and what is cut off or covered.
-/

namespace ComponentPack.Stylesheet

open Grammar Stylesheet.Measure

namespace Property

namespace Effect

/-- A share, which is written as it was: a number or in percent. What is usual is left out. -/
def portion? (inside : List Component) : Option Text :=
  match Component.solid inside with
  | [] => some []
  | inside => do
    let value ← whole? share inside
    if value = 1 then return [] else whole? (Measure.number <|> Measure.percentage) inside

/-- A value that need not be written if it is nothing. -/
def sized? (grammar : Grammar Text) (inside : List Component) : Option Text :=
  match Component.solid inside with
  | [] => some []
  | inside => (whole? grammar inside).map fun text => if text = ['0'] then [] else text

def filter? (name : Text) (inside : List Component) : Option Text :=
  let call (text? : Option Text) : Option Text := text?.map fun text => name ++ '(' :: text ++ [')']
  match String.ofList name with
  | "blur" => call (sized? length inside)
  | "hue-rotate" => call (sized? plainAngle inside)
  | "brightness" | "contrast" | "grayscale" | "invert" | "opacity" | "saturate" | "sepia" =>
    call (portion? inside)
  | "drop-shadow" => call (whole? Background.textShadow inside)
  | _ => none

def filter : Grammar Text :=
  Image.address <|> do
    match ← next with
    | .call name inside =>
      match filter? (Text.lower name) inside with
      | some text => return text
      | none => failure
    | _ => failure

def filters : Grammar Text :=
  Grammar.word "none" <|> do return (← repeated filter).flatten

/-- The centre of a shape after a word; the middle need not be written. -/
def centre : Grammar (List Text) := do
  match ← optional (Grammar.word "at") with
  | some _ =>
    let position ← Position.grammar
    let text := position.text
    return if text = Axis.half then [] else ["at", text]
  | none => return []

def radius : Grammar Text :=
  oneOf ["closest-side", "farthest-side"] <|> lengthPercentage

def unusual (radii : List Text) : List Text :=
  if radii.all (· = "closest-side") then [] else radii

def circle : Grammar Text := do
  let radius := (← optional radius).toList
  return spaced (unusual radius ++ (← centre))

def ellipse : Grammar Text := do
  let radii := (← optional (do return [← radius, ← radius])).getD []
  return spaced (unusual radii ++ (← centre))

/-- A box that is smaller on its sides, with round corners if that is said. -/
def inset : Grammar Text := do
  let sides ← boxText lengthPercentage
  match ← optional (Grammar.word "round") with
  | some word => return spaced [sides, word, ← boxText lengthPercentage]
  | none => return sides

def point : Grammar Text := do
  return spaced [← lengthPercentage, ← lengthPercentage]

/-- The points of a shape, after a rule for its inside that need not be written if it is usual. -/
def polygon? (inside : List Component) : Option Text :=
  match Component.parts ',' inside with
  | [] => none
  | first :: rest =>
    let (rules, points) := match whole? (oneOf ["nonzero", "evenodd"]) first with
      | some rule => (if rule = "nonzero" then [] else [rule], rest)
      | none => ([], first :: rest)
    (points.mapM (whole? point)).map fun points => List.intercalate [','] (rules ++ points)

def shape : Grammar Text := do
  match ← next with
  | .call name inside =>
    let name := Text.lower name
    let text? := match String.ofList name with
      | "circle" => whole? circle inside
      | "ellipse" => whole? ellipse inside
      | "inset" => whole? inset inside
      | "polygon" => polygon? inside
      | _ => none
    match text? with
    | some text => return name ++ '(' :: text ++ [')']
    | none => failure
  | _ => failure

def boxWords : List String :=
  ["border-box", "padding-box", "content-box", "margin-box", "fill-box", "stroke-box", "view-box"]

def clipPath : Grammar Text :=
  Grammar.word "none" <|> Image.address <|> do
    match ← anyOrder [shape, oneOf boxWords] with
    | [some shape, box?] =>
      return spaced (shape :: (box?.filter (· ≠ "border-box".toList)).toList)
    | [none, some box] => return box
    | _ => failure

def maskClip : Grammar Text := oneOf (boxWords ++ ["no-clip"])

def mask : Grammar Text :=
  shorthand "none" [("none", Image.grammar), ("", Background.placed),
    ("repeat", Background.tiling), ("border-box", oneOf boxWords), ("border-box", maskClip),
    ("add", oneOf ["add", "subtract", "intersect", "exclude"]),
    ("match-source", oneOf ["luminance", "alpha", "match-source"])]

def grammars : List (String × Grammar Text) :=
  [("clip-path", clipPath), ("mask", listedText mask),
    ("mask-image", listedText Image.grammar),
    ("mask-position", listedText Position.textOf),
    ("mask-size", listedText Background.size),
    ("mask-repeat", listedText Background.tiling),
    ("mask-clip", listedText maskClip),
    ("mask-origin", listedText (oneOf boxWords)),
    ("mask-composite",
      listedText (oneOf ["add", "subtract", "intersect", "exclude"])),
    ("mask-mode", listedText (oneOf ["luminance", "alpha", "match-source"])),
    ("mask-type", oneOf ["luminance", "alpha"])] ++
  same ["filter", "backdrop-filter"] filters

end Effect

end Property

end ComponentPack.Stylesheet
