import ComponentPack.Stylesheet.Property.Box

/-!
Properties of backgrounds and shadows.
-/

namespace ComponentPack.Stylesheet

open Grammar Stylesheet.Measure Position

namespace Property

namespace Background

def tiling : Grammar Text :=
  (do
    let word ← oneOf ["repeat-x", "repeat-y"]
    return word) <|> do
      let words := oneOf ["repeat", "space", "round", "no-repeat"]
      let x ← words
      let y := (← optional words).getD x
      match String.ofList x, String.ofList y with
      | "repeat", "no-repeat" => return "repeat-x"
      | "no-repeat", "repeat" => return "repeat-y"
      | _, _ => return if x = y then x else spaced [x, y]

/-- A width and a height; a height that follows from the width is not written. -/
def size : Grammar Text :=
  oneOf ["cover", "contain"] <|> do
    let width ← lengthPercentageOrAuto
    match ← optional lengthPercentageOrAuto with
    | some height =>
      return if height = "auto" then width else spaced [width, height]
    | none => return width

def attachment : Grammar Text := oneOf ["scroll", "fixed", "local"]

def originWords : List String := ["border-box", "padding-box", "content-box"]

def origin : Grammar Text := oneOf originWords

def clip : Grammar Text := oneOf (originWords ++ ["border", "text"])

/-- A place, and after a slash a size. Those that are usual are empty. -/
def placed : Grammar Text := do
  let position ← grammar
  let size? ← optional (do mark '/'; size)
  let size := (size?.filter (· ≠ "auto".toList)).getD []
  if size.isEmpty then return if position.x.isZero ∧ position.y.isZero then [] else position.text
  else return position.text ++ '/' :: size

/-- The boxes to which a picture is placed and cut. One box stands for both. -/
def boxes (origin? clip? : Option Text) : List Text :=
  let origin := origin?.getD "padding-box"
  let clip := clip?.getD (origin?.getD "border-box")
  let isOriginWritten : Bool :=
    origin ≠ "padding-box" || clip ≠ "border-box" && originWords.contains
      (String.ofList clip)
  (if isOriginWritten then [origin] else []) ++
    if isOriginWritten ∧ clip ≠ origin ∨ clip ≠ "border-box" then [clip] else []

def layer : Grammar Text := do
  let taken ← anyOrder
    [Color.grammar, placed, Image.grammar, tiling, attachment, origin, clip]
  if taken.all Option.isNone then failure
  match taken with
  | [color?, placed?, image?, tiling?, attachment?, origin?, clip?] =>
    let unlike (usual : String) (text? : Option Text) : List Text :=
      (text?.filter (· ≠ usual.toList)).toList
    let texts := unlike "#0000" color? ++ unlike "none" image? ++ unlike "" placed? ++
      unlike "repeat" tiling? ++ unlike "scroll" attachment? ++ boxes origin? clip?
    return if texts.isEmpty then "0 0" else spaced texts
  | _ => failure

/-- Two to four lengths of a shadow; the last two are written only if they are something. -/
def shadowLengths : Grammar Text := do
  let x ← length
  let y ← length
  let blur := (← optional length).getD ['0']
  let spread := (← optional length).getD ['0']
  let blurs := if blur = ['0'] ∧ spread = ['0'] then [] else [blur]
  return spaced ([x, y] ++ blurs ++ if spread = ['0'] then [] else [spread])

/-- A shadow: lengths, and a colour before or after them. -/
def shadow (isInside : Grammar Text) : Grammar Text := do
  match ← anyOrder [isInside, shadowLengths, Color.grammar] with
  | [inside?, some lengths, color?] =>
    return spaced (inside?.toList ++ lengths ::
      (color?.filter (· ≠ "currentcolor".toList)).toList)
  | _ => failure

def boxShadow : Grammar Text := shadow (Grammar.word "inset")

def textShadow : Grammar Text := shadow failure

def grammars : List (String × Grammar Text) :=
  [("background", listedText layer), ("background-color", Color.grammar),
    ("background-image", listedText Image.grammar),
    ("background-position", listedText textOf),
    ("background-position-x",
      listedText (do return (← Axis.grammar horizontal).text)),
    ("background-position-y",
      listedText (do return (← Axis.grammar vertical).text)),
    ("background-size", listedText size),
    ("background-repeat", listedText tiling),
    ("background-attachment", listedText attachment),
    ("background-origin", listedText origin),
    ("background-clip", listedText clip), ("color", Color.grammar),
    ("box-shadow", listedText boxShadow),
    ("text-shadow", listedText textShadow)]

end Background

end Property

end ComponentPack.Stylesheet
