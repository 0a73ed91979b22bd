import ComponentPack.Stylesheet.Measure

/-!
Colours of stylesheets, which have names, digits or a call that gives their parts. A minified colour
is written in the shortest of these ways.
-/

namespace ComponentPack.Stylesheet

open Grammar Stylesheet.Measure

/-- A colour in three parts, and how much of it covers what is below; each is at most 255. -/
structure Color where
  red : Nat
  green : Nat
  blue : Nat
  alpha : Nat := 255
deriving DecidableEq, Repr

namespace Color

def ofCode (code : Nat) : Color :=
  { red := code / 0x10000, green := code / 0x100 % 0x100, blue := code % 0x100 }

def names : List (String × Nat) := [
  ("aliceblue", 0xf0f8ff), ("antiquewhite", 0xfaebd7), ("aqua", 0x00ffff),
  ("aquamarine", 0x7fffd4), ("azure", 0xf0ffff), ("beige", 0xf5f5dc), ("bisque", 0xffe4c4),
  ("black", 0x000000), ("blanchedalmond", 0xffebcd), ("blue", 0x0000ff), ("blueviolet", 0x8a2be2),
  ("brown", 0xa52a2a), ("burlywood", 0xdeb887), ("cadetblue", 0x5f9ea0), ("chartreuse", 0x7fff00),
  ("chocolate", 0xd2691e), ("coral", 0xff7f50), ("cornflowerblue", 0x6495ed),
  ("cornsilk", 0xfff8dc), ("crimson", 0xdc143c), ("cyan", 0x00ffff), ("darkblue", 0x00008b),
  ("darkcyan", 0x008b8b), ("darkgoldenrod", 0xb8860b), ("darkgray", 0xa9a9a9),
  ("darkgreen", 0x006400), ("darkgrey", 0xa9a9a9), ("darkkhaki", 0xbdb76b),
  ("darkmagenta", 0x8b008b), ("darkolivegreen", 0x556b2f), ("darkorange", 0xff8c00),
  ("darkorchid", 0x9932cc), ("darkred", 0x8b0000), ("darksalmon", 0xe9967a),
  ("darkseagreen", 0x8fbc8f), ("darkslateblue", 0x483d8b), ("darkslategray", 0x2f4f4f),
  ("darkslategrey", 0x2f4f4f), ("darkturquoise", 0x00ced1), ("darkviolet", 0x9400d3),
  ("deeppink", 0xff1493), ("deepskyblue", 0x00bfff), ("dimgray", 0x696969), ("dimgrey", 0x696969),
  ("dodgerblue", 0x1e90ff), ("firebrick", 0xb22222), ("floralwhite", 0xfffaf0),
  ("forestgreen", 0x228b22), ("fuchsia", 0xff00ff), ("gainsboro", 0xdcdcdc),
  ("ghostwhite", 0xf8f8ff), ("gold", 0xffd700), ("goldenrod", 0xdaa520), ("gray", 0x808080),
  ("green", 0x008000), ("greenyellow", 0xadff2f), ("grey", 0x808080), ("honeydew", 0xf0fff0),
  ("hotpink", 0xff69b4), ("indianred", 0xcd5c5c), ("indigo", 0x4b0082), ("ivory", 0xfffff0),
  ("khaki", 0xf0e68c), ("lavender", 0xe6e6fa), ("lavenderblush", 0xfff0f5),
  ("lawngreen", 0x7cfc00), ("lemonchiffon", 0xfffacd), ("lightblue", 0xadd8e6),
  ("lightcoral", 0xf08080), ("lightcyan", 0xe0ffff), ("lightgoldenrodyellow", 0xfafad2),
  ("lightgray", 0xd3d3d3), ("lightgreen", 0x90ee90), ("lightgrey", 0xd3d3d3),
  ("lightpink", 0xffb6c1), ("lightsalmon", 0xffa07a), ("lightseagreen", 0x20b2aa),
  ("lightskyblue", 0x87cefa), ("lightslategray", 0x778899), ("lightslategrey", 0x778899),
  ("lightsteelblue", 0xb0c4de), ("lightyellow", 0xffffe0), ("lime", 0x00ff00),
  ("limegreen", 0x32cd32), ("linen", 0xfaf0e6), ("magenta", 0xff00ff), ("maroon", 0x800000),
  ("mediumaquamarine", 0x66cdaa), ("mediumblue", 0x0000cd), ("mediumorchid", 0xba55d3),
  ("mediumpurple", 0x9370db), ("mediumseagreen", 0x3cb371), ("mediumslateblue", 0x7b68ee),
  ("mediumspringgreen", 0x00fa9a), ("mediumturquoise", 0x48d1cc), ("mediumvioletred", 0xc71585),
  ("midnightblue", 0x191970), ("mintcream", 0xf5fffa), ("mistyrose", 0xffe4e1),
  ("moccasin", 0xffe4b5), ("navajowhite", 0xffdead), ("navy", 0x000080), ("oldlace", 0xfdf5e6),
  ("olive", 0x808000), ("olivedrab", 0x6b8e23), ("orange", 0xffa500), ("orangered", 0xff4500),
  ("orchid", 0xda70d6), ("palegoldenrod", 0xeee8aa), ("palegreen", 0x98fb98),
  ("paleturquoise", 0xafeeee), ("palevioletred", 0xdb7093), ("papayawhip", 0xffefd5),
  ("peachpuff", 0xffdab9), ("peru", 0xcd853f), ("pink", 0xffc0cb), ("plum", 0xdda0dd),
  ("powderblue", 0xb0e0e6), ("purple", 0x800080), ("rebeccapurple", 0x663399), ("red", 0xff0000),
  ("rosybrown", 0xbc8f8f), ("royalblue", 0x4169e1), ("saddlebrown", 0x8b4513),
  ("salmon", 0xfa8072), ("sandybrown", 0xf4a460), ("seagreen", 0x2e8b57), ("seashell", 0xfff5ee),
  ("sienna", 0xa0522d), ("silver", 0xc0c0c0), ("skyblue", 0x87ceeb), ("slateblue", 0x6a5acd),
  ("slategray", 0x708090), ("slategrey", 0x708090), ("snow", 0xfffafa), ("springgreen", 0x00ff7f),
  ("steelblue", 0x4682b4), ("tan", 0xd2b48c), ("teal", 0x008080), ("thistle", 0xd8bfd8),
  ("tomato", 0xff6347), ("turquoise", 0x40e0d0), ("violet", 0xee82ee), ("wheat", 0xf5deb3),
  ("white", 0xffffff), ("whitesmoke", 0xf5f5f5), ("yellow", 0xffff00), ("yellowgreen", 0x9acd32)]

def ofName? (name : Text) : Option Color :=
  if Text.lower name = "transparent" then some ⟨0, 0, 0, 0⟩
  else
    (names.find? fun (known, _) => known.toList = Text.lower name).map fun (_, code) => ofCode code

def ofDigits? (text : Text) : Option Color := do
  match ← text.mapM Token.digit? with
  | [r, g, b] => return ⟨17 * r, 17 * g, 17 * b, 255⟩
  | [r, g, b, a] => return ⟨17 * r, 17 * g, 17 * b, 17 * a⟩
  | [r, r', g, g', b, b'] => return ⟨16 * r + r', 16 * g + g', 16 * b + b', 255⟩
  | [r, r', g, g', b, b', a, a'] =>
    return ⟨16 * r + r', 16 * g + g', 16 * b + b', 16 * a + a'⟩
  | _ => none

def unitShare (share : Rat) : Rat := max 0 (min 1 share)

def nearest (share : Rat) : Nat := (unitShare share * 255 + 1 / 2).floor.toNat

/-- A part that is a number up to `full`, a share, or `none`. -/
def part (full : Rat) : Grammar Rat :=
  (do let _ ← word "none"; return 0) <|> do
    match ← measure .number <|> measure .percentage with
    | [⟨size, .unit ['%']⟩] => return size / 100
    | [⟨size, .unit _⟩] => return size / full
    | _ => failure

def hue : Grammar Rat :=
  (do let _ ← word "none"; return 0) <|> do
    match ← measure .number <|> measure .angle with
    | [⟨size, .unit unit⟩] => return size * ((degrees? unit).getD 1)
    | _ => failure

/-- Three parts with commas between all or none of them, and what covers, after a comma or a slash.
-/
def parts (first second third : Grammar Rat) : Grammar (Rat × Rat × Rat × Rat) := do
  let a ← first
  let hasCommas := (← optional (mark ',')).isSome
  let b ← second
  if hasCommas then mark ','
  let c ← third
  match ← optional (mark (if hasCommas then ',' else '/')) with
  | some _ => return (a, b, c, unitShare (← part 1))
  | none => return (a, b, c, 1)

/-- How much there is of red, green or blue, for which `start` is 0, 8 or 4, in a colour that has a
hue in degrees, a saturation and a lightness. -/
def ofHue (hue saturation lightness : Rat) (start : Rat) : Rat :=
  let place := start + hue / 30
  let place := place - 12 * (place / 12).floor
  let spread := saturation * min lightness (1 - lightness)
  lightness - spread * max (-1) (min (min (place - 3) (9 - place)) 1)

/-- How much there is of red, green or blue in a colour that has a hue, some white and some black.
-/
def ofWhite (hue white black : Rat) (start : Rat) : Rat :=
  if 1 ≤ white + black then white / (white + black)
  else ofHue hue 1 (1 / 2) start * (1 - white - black) + white

def ofShares (red green blue alpha : Rat) : Color :=
  ⟨nearest red, nearest green, nearest blue, nearest alpha⟩

def ofCall? (name : Text) (inside : List Component) : Option Color :=
  match String.ofList (Text.lower name) with
  | "rgb" | "rgba" => do
    let (r, g, b, alpha) ← whole? (parts (part 255) (part 255) (part 255)) inside
    return ofShares r g b alpha
  | "hsl" | "hsla" => do
    let (h, s, l, alpha) ← whole? (parts hue (part 100) (part 100)) inside
    let (s, l) := (unitShare s, unitShare l)
    return ofShares (ofHue h s l 0) (ofHue h s l 8) (ofHue h s l 4) alpha
  | "hwb" => do
    let (h, w, b, alpha) ← whole? (parts hue (part 100) (part 100)) inside
    let (w, b) := (unitShare w, unitShare b)
    return ofShares (ofWhite h w b 0) (ofWhite h w b 8) (ofWhite h w b 4) alpha
  | _ => none

def pair (part : Nat) : Text :=
  let digits := Nat.toDigits 16 part
  List.replicate (2 - digits.length) '0' ++ digits

/-- A colour with a digit sign, where one digit for each part is enough if both are the same. -/
def digits (color : Color) : Text :=
  let parts := [color.red, color.green, color.blue] ++
    if color.alpha = 255 then [] else [color.alpha]
  if parts.all fun part => part % 17 = 0 then '#' :: parts.flatMap fun part => (pair part).take 1
  else '#' :: parts.flatMap pair

def text (color : Color) : Text :=
  let digits := color.digits
  match names.find? fun (name, code) => ofCode code = color ∧ name.length < digits.length with
  | some (name, _) => name.toList
  | none => digits

def spaceText (name : String) (parts : List Text) (alpha : Rat) : Text :=
  name.toList ++ '(' :: spaced parts ++
    (if alpha = 1 then [] else '/' :: Numeral.text alpha) ++ [')']

def lightText (share : Rat) : Text := Numeral.text (share * 100) ++ ['%']

def scaledPart (full : Rat) : Grammar Rat := return (← part full) * full

def spaceOf? (name : Text) (inside : List Component) : Option Text :=
  let text := Numeral.text
  match String.ofList (Text.lower name) with
  | "lab" => do
    let (l, a, b, alpha) ←
      whole? (parts (part 100) (scaledPart 125) (scaledPart 125)) inside
    return spaceText "lab" [lightText l, text a, text b] alpha
  | "lch" => do
    let (l, c, h, alpha) ← whole? (parts (part 100) (scaledPart 150) hue) inside
    return spaceText "lch" [lightText l, text c, text h] alpha
  | "oklab" => do
    let (l, a, b, alpha) ←
      whole? (parts (part 1) (scaledPart (2 / 5)) (scaledPart (2 / 5))) inside
    return spaceText "oklab" [lightText l, text a, text b] alpha
  | "oklch" => do
    let (l, c, h, alpha) ← whole? (parts (part 1) (scaledPart (2 / 5)) hue) inside
    return spaceText "oklch" [lightText l, text c, text h] alpha
  | "color" => do
    let grammar : Grammar (Text × Rat × Rat × Rat × Rat) := do
      return (Text.lower (← Grammar.name), ← parts (part 1) (part 1) (part 1))
    let (space, a, b, c, alpha) ← whole? grammar inside
    return spaceText "color" [space, text a, text b, text c] alpha
  | _ => none

def called? (name : Text) (inside : List Component) : Option Text :=
  (ofCall? name inside).map Color.text <|> spaceOf? name inside

/-- The names of colours that the surroundings decide. -/
def outerNames : List String :=
  ["currentcolor", "accentcolor", "accentcolortext", "activetext", "buttonborder", "buttonface",
    "buttontext", "canvas", "canvastext", "field", "fieldtext", "graytext", "highlight",
    "highlighttext", "linktext", "mark", "marktext", "selecteditem", "selecteditemtext",
    "visitedtext", "activeborder", "activecaption", "appworkspace", "background",
    "buttonhighlight", "buttonshadow", "captiontext", "inactiveborder", "inactivecaption",
    "inactivecaptiontext", "infobackground", "infotext", "menu", "menutext", "scrollbar",
    "threeddarkshadow", "threedface", "threedhighlight", "threedlightshadow", "threedshadow",
    "window", "windowframe", "windowtext"]

def grammar : Grammar Text := satisfying fun
  | .token (.name name) =>
    match ofName? name with
    | some color => some color.text
    | none =>
      if outerNames.any fun known => known.toList = Text.lower name then some (Text.lower name)
      else none
  | .token (.hash digits _) => (ofDigits? digits).map Color.text
  | .call name inside => called? name inside
  | _ => none

def orAuto : Grammar Text := word "auto" <|> grammar

end Color

end ComponentPack.Stylesheet
