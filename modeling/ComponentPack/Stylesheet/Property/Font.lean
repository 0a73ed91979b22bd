import ComponentPack.Stylesheet.Property.Box

/-!
Properties of fonts.
-/

namespace ComponentPack.Stylesheet

open Grammar

namespace Property

namespace Font

/-- A weight of letters, by its number where it has one. -/
def weight : Grammar Text :=
  oneOf ["bolder", "lighter"] <|>
    (do let _ ← word "normal"; return "400") <|>
    (do let _ ← word "bold"; return "700") <|> Measure.number

def size : Grammar Text :=
  oneOf ["xx-small", "x-small", "small", "medium", "large", "x-large", "xx-large",
    "xxx-large", "larger", "smaller"] <|> Measure.lengthPercentage

def stretches : List (String × String) :=
  [("normal", "100%"), ("ultra-condensed", "50%"), ("extra-condensed", "62.5%"),
    ("condensed", "75%"), ("semi-condensed", "87.5%"), ("semi-expanded", "112.5%"),
    ("expanded", "125%"), ("extra-expanded", "150%"), ("ultra-expanded", "200%")]

def stretchName : Grammar Text := do
  let name := Text.lower (← Grammar.name)
  match stretches.find? fun (known, _) => known.toList = name with
  | some (_, share) => return share.toList
  | none => failure

def stretch : Grammar Text := stretchName <|> Measure.percentage

def slant : Grammar Text :=
  oneOf ["normal", "italic"] <|> do
    let _ ← word "oblique"
    match ← optional Measure.angle with
    | some angle =>
      return if angle = "14deg" then "oblique"
        else spaced ["oblique", angle]
    | none => return "oblique"

def kinds : List String :=
  ["serif", "sans-serif", "cursive", "fantasy", "monospace", "system-ui", "emoji", "math",
    "fangsong", "ui-serif", "ui-sans-serif", "ui-monospace", "ui-rounded", "initial", "inherit",
    "unset", "default", "revert", "revert-layer"]

/-- A font by its name: words, or a quoted text. Quotes are needed only around a name that means no
single font. -/
def family : Grammar Text :=
  (do return nameText (← quoted)) <|> oneOf kinds <|> do
    return nameText (spaced (← repeated Grammar.name))
where
  nameText (name : Text) : Text :=
    let words := spaced ((Text.splitAll ' ' name).map Token.nameText)
    let isKind := kinds.any fun kind => kind.toList = Text.lower name
    if !name.isEmpty ∧ !isKind ∧ words.length < name.length + 2 then words
    else Token.quotedText name

def lineHeight : Grammar Text :=
  word "normal" <|> Measure.number <|> Measure.lengthPercentage

def capitals : List String :=
  ["normal", "small-caps", "all-small-caps", "petite-caps", "all-petite-caps", "unicase",
    "titling-caps"]

/-- The properties before the size of a font, in any order. The word for what is usual may stand for
any of them. -/
def lead : Grammar (List Text) := do
  let usual := word "normal"
  let weight : Grammar Text :=
    oneOf ["bolder", "lighter"] <|>
      (do let _ ← word "bold"; return "700") <|> do
        let value ← number
        if 1 ≤ value ∧ value ≤ 1000 then return Numeral.text value else failure
  let taken ← anyOrder
    [usual, usual, usual, usual, slant, weight, word "small-caps", stretchName]
  match taken with
  | [_, _, _, _, slant?, weight?, capitals?, stretch?] =>
    return slant?.toList ++ capitals?.toList ++ weight?.toList ++ stretch?.toList
  | _ => failure

/-- A font: what is unusual of it, its size with the height of a line, and the names. -/
def font : Grammar Text := do
  let lead ← lead
  let size ← size
  let size ← match ← optional (mark '/') with
    | some _ =>
      let height ← lineHeight
      pure (if height = "normal" then size else size ++ '/' :: height)
    | none => pure size
  let families ← listedText family
  return spaced (lead ++ [size, families])

def grammars : List (String × Grammar Text) :=
  [("font", font), ("font-weight", weight), ("font-size", size), ("font-stretch", stretch),
    ("font-style", slant), ("font-family", listedText family),
    ("font-variant-caps", oneOf capitals), ("line-height", lineHeight),
    ("vertical-align", oneOf ["baseline", "sub", "super", "top", "text-top", "middle",
      "bottom", "text-bottom"] <|> Measure.lengthPercentage)]

end Font

end Property

end ComponentPack.Stylesheet
