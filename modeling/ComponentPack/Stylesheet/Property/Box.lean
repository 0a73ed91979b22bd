import ComponentPack.Stylesheet.Image

/-!
Properties of boxes: how they are shown, how large they are, and where they are.
-/

namespace ComponentPack.Stylesheet

open Grammar Stylesheet.Measure

namespace Property

def same (names : List String) (grammar : Grammar Text) : List (String × Grammar Text) :=
  names.map fun name => (name, grammar)

def sideNames (start finish : String) : List String :=
  ["top", "right", "bottom", "left", "block-start", "block-end", "inline-start",
    "inline-end"].map fun side => start ++ side ++ finish

namespace Box

/-- How a box is shown, by what it is outside and inside and whether it is an item of a list. -/
def display : Grammar Text :=
  (do
    let outer := oneOf ["block", "inline", "run-in"]
    let inner := oneOf ["flow", "flow-root", "table", "flex", "-webkit-flex", "-ms-flexbox",
      "-webkit-box", "-moz-box", "grid", "ruby"]
    match ← anyOrder [Grammar.word "list-item", outer, inner] with
    | [none, none, none] => failure
    | [item?, outside?, inside?] =>
      let inside := inside?.getD "flow"
      let usual : Text := if inside = "ruby" then "inline" else "block"
      text item?.isSome (outside?.getD usual) usual inside
    | _ => failure) <|>
  oneOf ["inline-block", "inline-table", "inline-flex", "-webkit-inline-flex",
    "-ms-inline-flexbox", "-webkit-inline-box", "-moz-inline-box", "inline-grid", "none",
    "contents", "table-row-group", "table-header-group", "table-footer-group", "table-row",
    "table-cell", "table-column-group", "table-column", "table-caption", "ruby-base", "ruby-text",
    "ruby-base-container", "ruby-text-container"]
where
  text (isItem : Bool) (outside usual inside : Text) : Grammar Text :=
    let isFlow := inside = "flow".toList
    if isItem ∧ !isFlow ∧ inside ≠ "flow-root".toList then failure
    else
      match isItem, String.ofList outside, String.ofList inside with
      | false, "inline", "flow-root" => pure "inline-block".toList
      | false, "inline", "table" => pure "inline-table".toList
      | false, "inline", "flex" => pure "inline-flex".toList
      | false, "inline", "grid" => pure "inline-grid".toList
      | _, _, _ =>
        pure (spaced ((if outside ≠ usual ∨ isFlow ∧ !isItem then [outside] else []) ++
          (if isFlow then [] else [inside]) ++ if isItem then ["list-item".toList] else []))

def overflowWords : List String := ["visible", "hidden", "clip", "scroll", "auto"]

/-- The words for a size that follows from what is inside or outside of a box. -/
def sizeWords : List String :=
  ["min-content", "-webkit-min-content", "-moz-min-content", "max-content",
    "-webkit-max-content", "-moz-max-content", "fit-content", "-webkit-fit-content",
    "-moz-fit-content", "stretch", "-webkit-fill-available", "-moz-available", "contain"]

def size (word : String) : Grammar Text :=
  oneOf (word :: sizeWords) <|>
    (do
      let inside ← callOf "fit-content" lengthPercentage
      return callText "fit-content" [inside]) <|>
    lengthPercentage

/-- The ratio of two sizes; the second number need not be one. -/
def ratio : Grammar Text := do
  let first ← Measure.number
  match ← optional (do mark '/'; Measure.number) with
  | some second => return if second = ['1'] then first else first ++ '/' :: second
  | none => return first

def aspectRatio : Grammar Text := do
  match ← anyOrder [Grammar.word "auto", ratio] with
  | [none, none] => failure
  | taken => return spaced (taken.filterMap id)

def lengthOrNumber : Grammar Text := Measure.number <|> Measure.length

def grammars : List (String × Grammar Text) :=
  [("display", display),
    ("visibility", oneOf ["visible", "hidden", "collapse"]),
    ("box-sizing", oneOf ["content-box", "border-box"]),
    ("aspect-ratio", aspectRatio),
    ("overflow", pair (oneOf overflowWords)),
    ("position", oneOf ["static", "relative", "absolute", "fixed", "sticky",
      "-webkit-sticky"]),
    ("z-index", Grammar.word "auto" <|> Measure.integer),
    ("opacity", shareText),
    ("inset", boxText lengthPercentageOrAuto),
    ("margin", boxText lengthPercentageOrAuto),
    ("padding", boxText lengthPercentageOrAuto),
    ("scroll-margin", boxText lengthPercentageOrAuto),
    ("scroll-padding", boxText lengthPercentageOrAuto)] ++
  same ["overflow-x", "overflow-y"] (oneOf overflowWords) ++
  same ["width", "height", "min-width", "min-height", "block-size", "inline-size",
    "min-block-size", "min-inline-size"] (size "auto") ++
  same ["max-width", "max-height", "max-block-size", "max-inline-size"] (size "none") ++
  same (["top", "bottom", "left", "right"] ++
    ["inset-block-start", "inset-block-end", "inset-inline-start", "inset-inline-end"] ++
    sideNames "margin-" "" ++ sideNames "padding-" "" ++ sideNames "scroll-margin-" "" ++
    sideNames "scroll-padding-" "") lengthPercentageOrAuto ++
  same ["inset-block", "inset-inline", "margin-block", "margin-inline", "padding-block",
    "padding-inline", "scroll-margin-block", "scroll-margin-inline", "scroll-padding-block",
    "scroll-padding-inline"] (pair lengthPercentageOrAuto)

end Box

end Property

end ComponentPack.Stylesheet
