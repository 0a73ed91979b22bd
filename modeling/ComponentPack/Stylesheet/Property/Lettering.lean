import ComponentPack.Stylesheet.Property.Box

/-!
Properties of text.
-/

namespace ComponentPack.Stylesheet

open Grammar

namespace Property

namespace Lettering

def transform : Grammar Text := do
  let taken ← anyOrder [oneOf ["none", "uppercase", "lowercase", "capitalize"],
    word "full-width", word "full-size-kana"]
  match taken with
  | [none, none, none] => failure
  | [change?, wide?, kana?] =>
    let others := wide?.toList ++ kana?.toList
    let change := if others.isEmpty then change?.toList
      else (change?.filter (· ≠ "none".toList)).toList
    return spaced (change ++ others)
  | _ => failure

def spacing : Grammar Text := word "normal" <|> Measure.length

def indent : Grammar Text := do
  match ← anyOrder
    [Measure.lengthPercentage, word "hanging", word "each-line"] with
  | [some size, hanging?, each?] =>
    return spaced (size :: hanging?.toList ++ each?.toList)
  | _ => failure

def decorationLine : Grammar Text :=
  oneOf ["none", "spelling-error", "grammar-error"] <|> do
    let lines := ["underline", "overline", "line-through", "blink"]
    let taken ← anyOrder (lines.map word)
    if taken.all Option.isNone then failure
    return spaced (taken.filterMap id)

def decorationStyle : Grammar Text :=
  oneOf ["solid", "double", "dotted", "dashed", "wavy"]

def thickness : Grammar Text :=
  oneOf ["auto", "from-font"] <|> Measure.lengthPercentage

/-- Lines with what is unusual of them. Without a line nothing else matters. -/
def decoration : Grammar Text := do
  match ← anyOrder [decorationLine, thickness, decorationStyle, Color.grammar] with
  | [none, none, none, none] => failure
  | [line?, thickness?, style?, color?] =>
    let line := line?.getD "none"
    return if line = "none" then line
      else spaced (line :: (thickness?.filter (· ≠ "auto".toList)).toList ++
        (style?.filter (· ≠ "solid".toList)).toList ++
        (color?.filter (· ≠ "currentcolor".toList)).toList)
  | _ => failure

def emphasisStyle : Grammar Text :=
  word "none" <|> (do return Token.quotedText (← quoted)) <|> do
    match ← anyOrder [oneOf ["filled", "open"],
      oneOf ["dot", "circle", "double-circle", "triangle", "sesame"]] with
    | [none, none] => failure
    | [fill?, none] => return fill?.getD []
    | [fill?, some shape] =>
      return spaced ((fill?.filter (· ≠ "filled".toList)).toList ++ [shape])
    | _ => failure

def emphasisPosition : Grammar Text := do
  match ← anyOrder [oneOf ["over", "under"], oneOf ["left", "right"]] with
  | [some down, across?] =>
    return spaced (down :: (across?.filter (· ≠ "right".toList)).toList)
  | _ => failure

def words : List (String × List String) :=
  [("white-space", ["normal", "pre", "nowrap", "pre-wrap", "break-spaces", "pre-line"]),
    ("word-break", ["normal", "keep-all", "break-all", "break-word"]),
    ("line-break", ["auto", "loose", "normal", "strict", "anywhere"]),
    ("hyphens", ["none", "manual", "auto"]),
    ("overflow-wrap", ["normal", "anywhere", "break-word"]),
    ("word-wrap", ["normal", "anywhere", "break-word"]),
    ("text-align",
      ["start", "end", "left", "right", "center", "justify", "match-parent", "justify-all"]),
    ("text-align-last",
      ["auto", "start", "end", "left", "right", "center", "justify", "match-parent"]),
    ("text-justify", ["auto", "none", "inter-word", "inter-character"]),
    ("text-overflow", ["clip", "ellipsis"]), ("text-decoration-skip-ink", ["auto", "none", "all"]),
    ("direction", ["ltr", "rtl"]),
    ("unicode-bidi",
      ["normal", "embed", "isolate", "bidi-override", "isolate-override", "plaintext"]),
    ("box-decoration-break", ["slice", "clone"])]

def grammars : List (String × Grammar Text) :=
  (words.map fun (name, words) => (name, oneOf words)) ++
  [("text-transform", transform), ("tab-size", Box.lengthOrNumber), ("text-indent", indent),
    ("text-decoration-line", decorationLine), ("text-decoration-style", decorationStyle),
    ("text-decoration-color", Color.grammar), ("text-decoration-thickness", thickness),
    ("text-decoration", decoration), ("text-emphasis-style", emphasisStyle),
    ("text-emphasis-color", Color.grammar), ("text-emphasis-position", emphasisPosition),
    ("text-emphasis",
      shorthand "none" [("none", emphasisStyle), ("currentcolor", Color.grammar)]),
    ("text-size-adjust", oneOf ["auto", "none"] <|> Measure.percentage)] ++
  same ["word-spacing", "letter-spacing"] spacing

end Lettering

end Property

end ComponentPack.Stylesheet
