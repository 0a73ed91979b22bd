import ComponentPack.Stylesheet.Property.Box

/-!
Properties of lists, of what a reader can do, and of drawings.
-/

namespace ComponentPack.Stylesheet

open Grammar

namespace Property

namespace Interface

def counters : List String :=
  ["decimal", "decimal-leading-zero", "arabic-indic", "armenian", "upper-armenian",
    "lower-armenian", "bengali", "cambodian", "khmer", "cjk-decimal", "devanagari", "georgian",
    "gujarati", "gurmukhi", "hebrew", "kannada", "lao", "malayalam", "mongolian", "myanmar",
    "oriya", "persian", "lower-roman", "upper-roman", "tamil", "telugu", "thai", "tibetan",
    "lower-alpha", "lower-latin", "upper-alpha", "upper-latin", "lower-greek", "hiragana",
    "hiragana-iroha", "katakana", "katakana-iroha", "disc", "circle", "square",
    "disclosure-open", "disclosure-closed", "cjk-earthly-branch", "cjk-heavenly-stem",
    "japanese-informal", "japanese-formal", "korean-hangul-formal", "korean-hanja-informal",
    "korean-hanja-formal", "simp-chinese-informal", "simp-chinese-formal",
    "trad-chinese-informal", "trad-chinese-formal", "ethiopic-numeric"]

/-- The mark of a list: a known one, one of a name of one's own, or a text. -/
def counter : Grammar Text :=
  oneOf ("none" :: counters) <|> (do return Token.quotedText (← quoted)) <|> do
    return Token.nameText (← Grammar.name)

def listPosition : Grammar Text := oneOf ["inside", "outside"]

/-- A list: where its marks are, their picture and their kind. A word for no mark stands for the
picture and the kind, as far as they are not given. -/
def list : Grammar Text := do
  let absent := Grammar.word "none"
  let known : Grammar Text := do
    let text ← counter
    if text = "none" then failure else return text
  match ← anyOrder [absent, absent, listPosition, Image.address, known] with
  | [none, none, none, none, none] => failure
  | [no?, _, position?, image?, kind?] =>
    let kind := kind?.getD (if no?.isSome then "none" else "disc")
    let texts := (position?.filter (· ≠ "outside".toList)).toList ++ image?.toList ++
      if kind = "disc" then [] else [kind]
    return if texts.isEmpty then "outside" else spaced texts
  | _ => failure

def cursors : List String :=
  ["auto", "default", "none", "context-menu", "help", "pointer", "progress", "wait", "cell",
    "crosshair", "text", "vertical-text", "alias", "copy", "move", "no-drop", "not-allowed", "grab",
    "grabbing", "e-resize", "n-resize", "ne-resize", "nw-resize", "s-resize", "se-resize",
    "sw-resize", "w-resize", "ew-resize", "ns-resize", "nesw-resize", "nwse-resize", "col-resize",
    "row-resize", "all-scroll", "zoom-in", "zoom-out"]

def cursorImage : Grammar Text := do
  let image ← Image.address
  let point? ← optional (do return [← Measure.number, ← Measure.number])
  return spaced (image :: point?.getD [])

/-- A pointer: pictures to be tried before a known one. -/
def cursor : Grammar Text := do
  let images ← many (do
    let image ← cursorImage
    mark ','
    return image)
  return List.intercalate [','] (images ++ [← oneOf cursors])

def caretShape : Grammar Text := oneOf ["auto", "bar", "block", "underscore"]

def paint : Grammar Text :=
  oneOf ["none", "context-fill", "context-stroke"] <|>
    (do
      let address ← Image.address
      let other? ← optional (Grammar.word "none" <|> Color.grammar)
      return spaced (address :: other?.toList)) <|> Color.grammar

def dashes : Grammar Text :=
  Grammar.word "none" <|> do
    let first ← dash
    let others ← many (do
      let _ ← optional (mark ',')
      dash)
    return spaced (first :: others)
where
  dash : Grammar Text := Measure.number <|> Measure.lengthPercentage

def marker : Grammar Text := Grammar.word "none" <|> Image.address

/-- Which appearances of a page are meant, the light and the dark one. -/
def scheme : Grammar Text :=
  Grammar.word "normal" <|> do
    let words ← repeated Grammar.name
    let words := words.map fun word => String.ofList (Text.lower word)
    return spaced (["light", "dark", "only"].filterMap fun word =>
      if words.contains word then some word.toList else none)

def words : List (String × List String) :=
  [("list-style-position", ["inside", "outside"]),
    ("resize", ["none", "both", "horizontal", "vertical", "block", "inline"]),
    ("user-select", ["auto", "text", "none", "contain", "all"]),
    ("marker-side", ["match-self", "match-parent"]), ("fill-rule", ["nonzero", "evenodd"]),
    ("clip-rule", ["nonzero", "evenodd"]), ("stroke-linecap", ["butt", "round", "square"]),
    ("stroke-linejoin", ["miter", "miter-clip", "round", "bevel", "arcs"]),
    ("color-interpolation", ["auto", "srgb", "linearrgb"]),
    ("color-interpolation-filters", ["auto", "srgb", "linearrgb"]),
    ("color-rendering", ["auto", "optimizespeed", "optimizequality"]),
    ("shape-rendering", ["auto", "optimizespeed", "crispedges", "geometricprecision"]),
    ("text-rendering",
      ["auto", "optimizespeed", "optimizelegibility", "geometricprecision"]),
    ("image-rendering", ["auto", "optimizespeed", "optimizequality"]),
    ("print-color-adjust", ["economy", "exact"]), ("color-adjust", ["economy", "exact"]),
    ("container-type", ["normal", "inline-size", "size", "scroll-state"])]

def grammars : List (String × Grammar Text) :=
  (words.map fun (name, words) => (name, oneOf words)) ++
  [("list-style", list), ("list-style-type", counter),
    ("list-style-image", Grammar.word "none" <|> Image.grammar), ("cursor", cursor),
    ("caret-color", Color.orAuto), ("caret-shape", caretShape),
    ("caret", shorthand "auto" [("auto", Color.orAuto), ("auto", caretShape)]),
    ("accent-color", Color.orAuto),
    ("appearance", do return Token.nameText (Text.lower (← Grammar.name))),
    ("stroke-width", Box.lengthOrNumber <|> Measure.lengthPercentage),
    ("stroke-dasharray", dashes),
    ("stroke-dashoffset", Box.lengthOrNumber <|> Measure.lengthPercentage),
    ("stroke-miterlimit", Measure.number), ("color-scheme", scheme)] ++
  same ["fill", "stroke"] paint ++ same ["fill-opacity", "stroke-opacity"] Measure.shareText ++
  same ["marker", "marker-start", "marker-mid", "marker-end"] marker

end Interface

end Property

end ComponentPack.Stylesheet
