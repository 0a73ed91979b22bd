import ComponentPack.Stylesheet.Plain
import ComponentPack.Stylesheet.Property.Border
import ComponentPack.Stylesheet.Property.Effect
import ComponentPack.Stylesheet.Property.Font
import ComponentPack.Stylesheet.Property.Grid
import ComponentPack.Stylesheet.Property.Interface
import ComponentPack.Stylesheet.Property.Lettering
import ComponentPack.Stylesheet.Property.Motion
import ComponentPack.Stylesheet.Property.Transform

/-!
Properties by their names. The value of a known property is written in its shortest form if it has
one; all other values are kept as they are.
-/

namespace ComponentPack.Stylesheet

namespace Property

def known : List (String × Grammar Text) :=
  Box.grammars ++ Border.grammars ++ Flex.grammars ++ Grid.grammars ++ Background.grammars ++
    Font.grammars ++ Lettering.grammars ++ Motion.grammars ++ Transform.grammars ++
    Effect.grammars ++ Interface.grammars

def vendors : List (String × List String) :=
  [("-webkit-", ["border-image", "flex-direction", "flex-wrap", "flex-flow", "flex-grow",
      "flex-shrink", "flex-basis", "flex", "order", "align-content", "justify-content",
      "align-self", "align-items", "text-decoration-skip-ink", "text-emphasis-style",
      "text-emphasis-color", "text-emphasis", "text-emphasis-position", "box-decoration-break",
      "clip-path", "mask-image", "mask-mode", "mask-repeat", "mask-position", "mask-clip",
      "mask-origin", "mask-size", "mask-composite", "mask", "filter", "backdrop-filter",
      "print-color-adjust"] ++ turned ++ shared ++ moved ++ animated ++ chosen),
    ("-moz-", ["border-image", "tab-size", "text-align-last"] ++ turned ++ shared ++ moved ++
      animated ++ chosen),
    ("-ms-", ["flex-direction", "flex-wrap", "flex-flow", "flex", "transform",
      "transform-origin"] ++ moved ++ chosen),
    ("-o-", ["border-image", "tab-size", "text-overflow", "transform",
      "transform-origin"] ++ animated)]
where
  turned : List String :=
    ["transform", "transform-origin", "transform-style", "backface-visibility", "perspective",
      "perspective-origin"]
  shared : List String :=
    ["background-clip", "box-shadow", "box-sizing", "border-radius", "border-top-left-radius",
      "border-top-right-radius", "border-bottom-left-radius", "border-bottom-right-radius",
      "text-decoration-line", "text-decoration-style", "text-decoration-color", "text-decoration"]
  moved : List String :=
    ["transition", "transition-property", "transition-duration", "transition-delay",
      "transition-timing-function"]
  animated : List String :=
    ["animation", "animation-name", "animation-duration", "animation-delay",
      "animation-timing-function", "animation-iteration-count", "animation-direction",
      "animation-fill-mode", "animation-play-state"]
  chosen : List String := ["hyphens", "text-size-adjust", "user-select", "appearance"]

def plainName (name : Text) : Text :=
  let found? := vendors.findSome? fun (vendor, names) =>
    let plain := name.drop vendor.length
    if vendor.toList.isPrefixOf name ∧ names.any (fun known => known.toList = plain) then some plain
    else none
  found?.getD name

def grammar? (name : Text) : Option (Grammar Text) :=
  let plain := plainName name
  (known.find? fun (known, _) => known.toList = plain).map Prod.snd

def common : List String := ["initial", "inherit", "unset", "revert", "revert-layer"]

/-- A property and its value as they are written, if the value is well-formed. The property that
stands for all others takes only a word that every property takes. -/
def declared? (name : Text) (value : List Component) : Option (Text × Text) :=
  let lower := Text.lower name
  match grammar? lower with
  | some grammar => do return (lower, ← Grammar.whole? grammar value <|> Plain.text? value)
  | none =>
    if lower = "all" then do return (lower, ← Grammar.whole? (Grammar.oneOf common) value)
    else do return (Token.nameText name, ← Plain.text? value)

end Property

end ComponentPack.Stylesheet
