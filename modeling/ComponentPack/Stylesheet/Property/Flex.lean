import ComponentPack.Stylesheet.Property.Box

/-!
Properties of boxes in rows and columns: how they grow, and how they are aligned.
-/

namespace ComponentPack.Stylesheet

open Grammar

namespace Property

namespace Flex

/-- How a box grows and shrinks, and its size before that. -/
def flex : Grammar Text :=
  (do
    let _ ← word "none"
    return "none") <|> do
      let factors : Grammar (Text × Text) := do
        let grow ← Measure.number
        return (grow, (← optional Measure.number).getD ['1'])
      let slots : List (Grammar (Text × Text)) :=
        [factors, do return (← Measure.lengthPercentageOrAuto, [])]
      match ← anyOrder slots with
      | [none, none] => failure
      | [factors?, basis?] =>
        let (grow, shrink) := factors?.getD (['1'], ['1'])
        return text grow shrink ((basis?.map Prod.fst).getD "0%")
      | _ => failure
where
  text (grow shrink basis : Text) : Text :=
    if [grow, shrink, basis] = [['0'], ['0'], "auto"] then "none"
    else if basis = "0%" then
      if shrink = ['1'] then grow else spaced [grow, shrink]
    else if basis = ['0'] then spaced [grow, shrink, basis]
    else if grow = ['1'] ∧ shrink = ['1'] then basis
    else if shrink = ['1'] then spaced [grow, basis]
    else spaced [grow, shrink, basis]

def direction : Grammar Text := oneOf ["row", "row-reverse", "column", "column-reverse"]

def wrap : Grammar Text := oneOf ["nowrap", "wrap", "wrap-reverse"]

def baseline : Grammar Text :=
  (do
    let _ ← optional (word "first")
    word "baseline") <|> do
      let _ ← word "last"
      let _ ← word "baseline"
      return "last baseline"

/-- A word for a place, and before it whether what does not fit may be lost. -/
def guarded (words : List String) : Grammar Text := do
  let guard ← optional (oneOf ["safe", "unsafe"])
  return spaced (guard.toList ++ [← oneOf words])

def spreadWords : List String := ["space-between", "space-around", "space-evenly", "stretch"]

def placeWords : List String := ["center", "start", "end", "flex-start", "flex-end"]

def ownWords : List String := placeWords ++ ["self-start", "self-end"]

def alignContent : Grammar Text :=
  oneOf ("normal" :: spreadWords) <|> baseline <|> guarded placeWords

def justifyContent : Grammar Text :=
  oneOf ("normal" :: spreadWords) <|> guarded (placeWords ++ ["left", "right"])

def alignSelf : Grammar Text :=
  oneOf ["auto", "normal", "stretch"] <|> baseline <|> guarded ownWords

def justifySelf : Grammar Text :=
  oneOf ["auto", "normal", "stretch"] <|> baseline <|>
    guarded (ownWords ++ ["left", "right"])

def alignItems : Grammar Text :=
  oneOf ["normal", "stretch"] <|> baseline <|> guarded ownWords

def justifyItems : Grammar Text :=
  oneOf ["normal", "stretch"] <|> baseline <|> guarded (ownWords ++ ["left", "right"])

/-- Two alignments, of which the second is written only if it is another one. -/
def both (first second : Grammar Text) : Grammar Text := do
  let align ← first
  match ← optional second with
  | some justify => return if justify = align then align else spaced [align, justify]
  | none => return align

def gap : Grammar Text := word "normal" <|> Measure.lengthPercentage

def grammars : List (String × Grammar Text) :=
  [("flex", flex), ("flex-direction", direction), ("flex-wrap", wrap),
    ("flex-flow", shorthand "row" [("row", direction), ("nowrap", wrap)]),
    ("flex-basis", Measure.lengthPercentageOrAuto), ("order", Measure.integer),
    ("align-content", alignContent), ("justify-content", justifyContent),
    ("place-content", both alignContent justifyContent), ("align-self", alignSelf),
    ("justify-self", justifySelf), ("place-self", both alignSelf justifySelf),
    ("align-items", alignItems), ("justify-items", justifyItems),
    ("place-items", both alignItems justifyItems), ("gap", pair gap)] ++
  same ["flex-grow", "flex-shrink"] Measure.number ++
  same ["row-gap", "column-gap"] gap

end Flex

end Property

end ComponentPack.Stylesheet
