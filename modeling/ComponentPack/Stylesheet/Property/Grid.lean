import ComponentPack.Stylesheet.Property.Flex

/-!
Properties of grids: their tracks, areas and lines.
-/

namespace ComponentPack.Stylesheet

open Grammar

namespace Property

namespace Grid

def fraction : Grammar Text := satisfying fun
  | .token (.number value unit) =>
    if Text.lower unit = "fr" then some (Numeral.text value.value ++ "fr") else none
  | _ => none

def breadth : Grammar Text :=
  oneOf ["min-content", "max-content", "auto"] <|> fraction <|> Measure.lengthPercentage

def track : Grammar Text :=
  breadth <|>
    (do
      let (_, inside) ← called ["minmax"]
      match (Component.parts ',' inside).mapM (whole? breadth) with
      | some [least, greatest] => return callText "minmax" [least, greatest]
      | _ => failure) <|>
    do
      let inside ← callOf "fit-content" Measure.lengthPercentage
      return callText "fit-content" [inside]

def lineNames : Grammar Text := do
  let names? ← satisfying fun
    | .block '[' inside => some (whole? (many Grammar.name) inside)
    | _ => none
  match names? with
  | some names => return '[' :: spaced (names.map Token.nameText) ++ [']']
  | none => failure

def repetition : Grammar Text := do
  let (_, inside) ← called ["repeat"]
  match Component.parts ',' inside with
  | [count, tracks] =>
    let count? := whole? (oneOf ["auto-fill", "auto-fit"] <|> Measure.integer) count
    let tracks? := whole? (repeated (lineNames <|> track)) tracks
    match count?, tracks? with
    | some count, some tracks => return callText "repeat" [count, spaced tracks]
    | _, _ => failure
  | _ => failure

def tracks : Grammar Text :=
  word "none" <|> do
    return spaced (← repeated (lineNames <|> repetition <|> track))

/-- A row of areas between quotes: names, and points for places without one. -/
def areaRow (text : Text) : Text :=
  let cells := (Text.splitAll ' ' text).filter fun cell => !cell.isEmpty
  let cells := cells.map fun cell => if cell.all (· = '.') then ['.'] else cell
  Token.quotedText (spaced cells)

def areas : Grammar Text :=
  word "none" <|> do
    return (← repeated quoted).flatMap areaRow

/-- A line of a grid: by its number or name, or by how many tracks lie between. -/
def line : Grammar Text :=
  word "auto" <|> do
    let name : Grammar Text := do return Token.nameText (← Grammar.name)
    match ← anyOrder [word "span", Measure.integer, name] with
    | [none, none, none] | [some _, none, none] => failure
    | [span?, count?, name?] =>
      let count? := if span?.isSome ∧ name?.isSome then count?.filter (· ≠ ['1']) else count?
      return spaced (span?.toList ++ count?.toList ++ name?.toList)
    | _ => failure

/-- What stands for a line that is not given: the same name, or no line. -/
def implied (line : Text) : Text :=
  if line.head?.any (fun c => c.isDigit || c == '-') ∨ "span ".toList.isPrefixOf line then
    "auto"
  else line

/-- Lines with slashes between them, as long as they do not follow from the ones before. -/
def lines (count : Nat) : Grammar Text := do
  let first ← line
  let others ← many (do mark '/'; line)
  if count ≤ others.length then failure
  return List.intercalate ['/'] (written (first :: others))
where
  written : List Text → List Text
    | [rowStart, columnStart, rowEnd, columnEnd] =>
      if columnEnd ≠ implied columnStart then [rowStart, columnStart, rowEnd, columnEnd]
      else written3 rowStart columnStart rowEnd
    | [rowStart, columnStart, rowEnd] => written3 rowStart columnStart rowEnd
    | lines => written2 lines
  written3 (rowStart columnStart rowEnd : Text) : List Text :=
    if rowEnd ≠ implied rowStart then [rowStart, columnStart, rowEnd]
    else written2 [rowStart, columnStart]
  written2 : List Text → List Text
    | [first, second] => if second = implied first then [first] else [first, second]
    | lines => lines

/-- In which direction boxes are placed, and whether gaps are filled. -/
def flow : Grammar Text := do
  match ← anyOrder [oneOf ["row", "column"], word "dense"] with
  | [none, none] => failure
  | [none, some dense] => return dense
  | [some way, dense?] =>
    return if way = "row" ∧ dense?.isSome then "dense"
      else spaced (way :: dense?.toList)
  | _ => failure

def grammars : List (String × Grammar Text) :=
  [("grid-template-areas", areas), ("grid-auto-flow", flow), ("grid-row", lines 2),
    ("grid-column", lines 2), ("grid-area", lines 4)] ++
  same ["grid-template-columns", "grid-template-rows"] tracks ++
  same ["grid-auto-columns", "grid-auto-rows"]
    (do return spaced (← repeated track)) ++
  same ["grid-row-start", "grid-row-end", "grid-column-start", "grid-column-end"] line ++
  same ["grid-template", "grid"] (do
    let rows ← tracks
    mark '/'
    return rows ++ '/' :: (← tracks))

end Grid

end Property

end ComponentPack.Stylesheet
