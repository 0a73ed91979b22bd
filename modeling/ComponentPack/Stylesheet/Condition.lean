import ComponentPack.Stylesheet.Plain

/-!
Conditions under which rules apply: which devices, windows or boxes they are for, or which
properties must be known.
-/

namespace ComponentPack.Stylesheet

open Grammar

namespace Condition

/-- A resolution; dots for each pixel are a plain factor. -/
def resolution : Grammar Text := satisfying fun
  | .token (.number value unit) =>
    match String.ofList (Text.lower unit) with
    | "dppx" | "x" => some (Numeral.text value.value ++ ['x'])
    | "dpi" => some (Numeral.text value.value ++ "dpi")
    | "dpcm" => some (Numeral.text value.value ++ "dpcm")
    | _ => none
  | _ => none

def value : Grammar Text :=
  (do
    let width ← Measure.number
    mark '/'
    return width ++ '/' :: (← Measure.number)) <|>
  Measure.number <|> Measure.length <|> resolution <|> do return Token.nameText (← Grammar.name)

def comparison : Grammar Text :=
  (do
    let c ← satisfying fun
      | .token (.mark c) => if c = '<' ∨ c = '>' then some c else none
      | _ => none
    let equal? ← optional (mark '=')
    return c :: (equal?.map fun _ => '=').toList) <|> do
    mark '='
    return ['=']

def turned (comparison : Text) : Text :=
  comparison.map fun c => if c = '<' then '>' else if c = '>' then '<' else c

def featureName : Grammar Text := do return Token.nameText (Text.lower (← Grammar.name))

/-- A feature with a value; a least or a greatest value is a comparison. -/
def given : Grammar Text := do
  let name ← featureName
  mark ':'
  let value ← value
  match name with
  | 'm' :: 'i' :: 'n' :: '-' :: name => return name ++ '>' :: '=' :: value
  | 'm' :: 'a' :: 'x' :: '-' :: name => return name ++ '<' :: '=' :: value
  | name => return name ++ ':' :: value

/-- A feature that is compared with one value or lies between two. -/
def compared : Grammar Text := do
  let first ← value
  let comparison ← comparison
  let second ← value
  match ← optional (do return (← Condition.comparison) ++ (← value)) with
  | some third => return first ++ comparison ++ second ++ third
  | none =>
    return if Token.beginsName first then Text.lower first ++ comparison ++ second
      else Text.lower second ++ turned comparison ++ first

def feature : Grammar Text := given <|> compared <|> featureName

def declared? (row : List Component) : Option Text :=
  match Component.solid row with
  | .token (.name name) :: colon :: _ =>
    if colon.isMark ':' then do
      let value ← Plain.text? ((row.dropWhile fun component => !component.isMark ':').drop 1)
      return Token.nameText name ++ ':' :: value
    else none
  | _ => none

/-- What stands in parentheses, or in those after a name. -/
def operand (leaf? inner : List Component → Option Text) : Grammar Text := satisfying fun
  | .block '(' inside =>
    (leaf? inside <|> inner inside <|> Plain.text? inside).map fun text => '(' :: text ++ [')']
  | .call name inside =>
    (Plain.text? inside).map fun text => Token.nameText (Text.lower name) ++ '(' :: text ++ [')']
  | _ => none

/-- Operands with the same word between them, or a negated one. -/
def composition (operand : Grammar Text) : Grammar Text :=
  (do return spaced [← Grammar.word "not", ← operand]) <|> do
    let first ← operand
    let more (word : String) : Grammar (List Text) := repeated (do
      return spaced [← Grammar.word word, ← operand])
    return spaced (first :: (← more "and" <|> more "or" <|> pure []))

def nested? (leaf? : List Component → Option Text) : Nat → List Component → Option Text
  | 0, _ => none
  | depth + 1, row => whole? (composition (operand leaf? (nested? leaf? depth))) row

def condition (leaf? : List Component → Option Text) : Grammar Text :=
  composition (operand leaf? (nested? leaf? Measure.maxDepth))

def features : Grammar Text := condition (whole? feature)

/-- A condition on a device: its kind and its features. All kinds need not be named. -/
def device : Grammar Text :=
  features <|> do
    let qualifier? ← optional (oneOf ["not", "only"])
    let kind := Text.lower (← Grammar.name)
    let features? ← optional (do let _ ← Grammar.word "and"; features)
    match features? with
    | some features =>
      if qualifier?.isNone ∧ kind = "all" then return features
      else
        return spaced (qualifier?.toList ++
          [Token.nameText kind, "and", features])
    | none => return spaced (qualifier?.toList ++ [Token.nameText kind])

/-- A condition on devices in its shortest form; nothing is left of one that always holds. -/
def devices? (row : List Component) : Option Text :=
  match Component.solid row with
  | [] => some []
  | solid =>
    match (Component.parts ',' solid).mapM (whole? device) with
    | some texts =>
      some (if texts.all (· = "all") then [] else List.intercalate [','] texts)
    | none => Plain.text? row

def container? (row : List Component) : Option Text :=
  let grammar : Grammar Text := do
    let name? ← optional (do
      let name ← Grammar.name
      if Text.lower name = "not" then failure else return Token.nameText name)
    let features? ← optional features
    return spaced (name?.toList ++ features?.toList)
  whole? grammar row <|> Plain.text? row

def known? (row : List Component) : Option Text :=
  whole? (condition declared?) row <|> Plain.text? row

end Condition

end ComponentPack.Stylesheet
