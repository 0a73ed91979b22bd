import ComponentPack.Stylesheet.Plain

/-!
Selectors: which elements a rule is for. A selector describes an element, and others around it, by
simple conditions.
-/

namespace ComponentPack.Stylesheet

open Grammar

inductive Relation where
  | inside
  | child
  | next
  | later
deriving DecidableEq, Repr

def Relation.text : Relation → Text
  | inside => [' ']
  | child => ['>']
  | next => ['+']
  | later => ['~']

inductive Simple where
  | any
  | element (name : Text)
  | parent
  /-- A condition as it is written, and whether it names what the rule around is for. -/
  | condition (text : Text) (hasParent : Bool)
deriving DecidableEq, Repr

namespace Simple

def text : Simple → Text
  | any => ['*']
  | element name => name
  | parent => ['&']
  | condition text _ => text

def hasParent : Simple → Bool
  | parent => true
  | condition _ hasParent => hasParent
  | _ => false

def isNamed : Simple → Bool
  | any | element _ => true
  | _ => false

/-- The description of an element. Any element is not named if there is something else. -/
def texts (simples : List Simple) : Text :=
  match simples.filter (· ≠ any) with
  | [] => ['*']
  | others => others.flatMap text

end Simple

structure Selector where
  /-- How the first element is related to what the rule around is for. -/
  lead : Option Relation
  first : List Simple
  others : List (Relation × List Simple)
deriving DecidableEq, Repr

namespace Selector

def text (selector : Selector) : Text :=
  ((selector.lead.filter (· ≠ .inside)).map Relation.text).getD [] ++ Simple.texts selector.first ++
    selector.others.flatMap fun (relation, simples) => relation.text ++ Simple.texts simples

def texts (selectors : List Selector) : Text := List.intercalate [','] (selectors.map text)

def hasParent (selector : Selector) : Bool :=
  selector.first.any Simple.hasParent || selector.others.any fun (_, simples) =>
    simples.any Simple.hasParent

/-- The conditions of a selector that describes one element and does not name it. -/
def conditions? (selector : Selector) : Option (List Simple) :=
  if selector.lead.isNone ∧ selector.others.isEmpty ∧ !selector.first.any Simple.isNamed then
    some selector.first
  else none

/-- A selector in a block. It is related to what the block is for, unless it says so itself. -/
def nested (selector : Selector) : Selector :=
  match selector.lead with
  | some relation =>
    { lead := none, first := [.parent], others := (relation, selector.first) :: selector.others }
  | none =>
    if selector.hasParent then selector
    else
      { lead := none, first := [.parent], others := (.inside, selector.first) :: selector.others }

def whole? : Text → Option Int
  | '+' :: digits => natural? digits
  | '-' :: digits => (natural? digits).map fun n => -n
  | digits => natural? digits
where
  natural? (digits : Text) : Option Int :=
    if digits.isEmpty ∨ !digits.all Char.isDigit then none
    else some (Nat.ofDigitChars 10 digits 0)

def placeText : Component → Text
  | .token (.number value unit) =>
    (if value.hasSign ∧ 0 ≤ value.value then ['+'] else []) ++ Numeral.text value.value ++
      Text.lower unit
  | .token (.name text) => Text.lower text
  | .token (.mark c) => [c]
  | _ => ['?']

/-- Every so manieth place, and the first of them. -/
def place? (row : List Component) : Option (Int × Int) :=
  let text := (Component.solid row).flatMap placeText
  match String.ofList text with
  | "odd" => some (2, 1)
  | "even" => some (2, 0)
  | _ =>
    match text.span (· ≠ 'n') with
    | (text, []) => (whole? text).map fun first => (0, first)
    | (step, _ :: first) => do
      let step ← if step.isEmpty ∨ step = ['+'] then some 1 else
        if step = ['-'] then some (-1) else whole? step
      let isSigned : Bool := first.head?.any fun c => c = '+' || c = '-'
      let first ← if first.isEmpty then some 0 else if isSigned then whole? first else none
      return (step, first)

def placeOf (step first : Int) : Text :=
  if step = 2 ∧ first = 1 then "odd"
  else if step = 0 then Text.ofInt first
  else
    (if step = 1 then [] else if step = -1 then ['-'] else Text.ofInt step) ++ 'n' ::
      if first = 0 then [] else if 0 < first then '+' :: Text.ofInt first else Text.ofInt first

/-- The value of an attribute, with quotes if that is not longer. -/
def valueText (value : Text) : Text :=
  let name := Token.nameText value
  let quoted := Token.quotedText value
  if name.isEmpty ∨ quoted.length ≤ name.length then quoted else name

def attributeName : Grammar Text :=
  (do
    let space ← (do return Token.nameText (← Grammar.name)) <|>
      (do mark '*'; return ['*']) <|> pure []
    mark '|'
    return space ++ '|' :: Token.nameText (← Grammar.name)) <|>
  do return Token.nameText (← Grammar.name)

def comparison : Grammar Text := do
  let c? ← optional (satisfying fun
    | .token (.mark c) => if c ∈ ['~', '|', '^', '$', '*'] then some c else none
    | _ => none)
  mark '='
  return c?.toList ++ ['=']

/-- What stands in brackets: an attribute, and what its value is compared with. -/
def bracketed : Grammar Text := do
  let name ← attributeName
  match ← optional comparison with
  | none => return '[' :: name ++ [']']
  | some comparison =>
    let value ← Grammar.name <|> Grammar.quoted
    let flag? ← optional (oneOf ["i", "s"])
    return '[' :: name ++ comparison ++ valueText value ++
      (flag?.map fun flag => ' ' :: flag).getD [] ++ [']']

/-- How selectors inside of others are read; the first argument says whether they may begin with a
relation. -/
abbrev Inner := Bool → List Component → Option Selector

def blank : Grammar Unit := satisfying fun component =>
  if component.isBlank then some () else none

def isOldPart (name : Text) : Bool :=
  name ∈ ["before", "after", "first-line", "first-letter"].map String.toList

def called? (inner : Inner) (colons name : Text) (inside : List Component) :
    Option (List Simple) :=
  let written (inside : Text) : Text := colons ++ Token.nameText name ++ '(' :: inside ++ [')']
  let ofSelectors (selectors : List Selector) : List Simple :=
    [.condition (written (texts selectors)) (selectors.any hasParent)]
  let parts := Component.parts ',' inside
  match String.ofList name with
  | "nth-child" | "nth-last-child" | "nth-of-type" | "nth-last-of-type" | "nth-col"
  | "nth-last-col" => do
    let isOf (component : Component) : Bool := match component with
      | .token (.name text) => Text.lower text = "of"
      | _ => false
    let place := inside.takeWhile fun component => !isOf component
    let (step, first) ← place? place
    let place := placeOf step first
    match inside.drop (inside.takeWhile fun component => !isOf component).length with
    | [] => return [.condition (written place) false]
    | _ :: rest =>
      let selectors ← (Component.parts ',' rest).mapM (inner false)
      return [.condition (written (place ++ " of " ++ texts selectors))
        (selectors.any hasParent)]
  | "not" | "host" | "host-context" | "slotted" | "cue" | "cue-region" =>
    (parts.mapM (inner false)).map ofSelectors
  | "has" => (parts.mapM (inner true)).map ofSelectors
  | "is" =>
    let selectors := parts.filterMap (inner false)
    match selectors with
    | [selector] => some (selector.conditions?.getD (ofSelectors selectors))
    | _ => some (ofSelectors selectors)
  | "where" | "-webkit-any" | "-moz-any" => some (ofSelectors (parts.filterMap (inner false)))
  | _ => do return [.condition (written (← Plain.text? inside)) false]

def pseudo (inner : Inner) : Grammar (List Simple) := do
  mark ':'
  let colons := if (← optional (mark ':')).isSome then [':', ':'] else [':']
  match ← Grammar.next with
  | .token (.name text) =>
    let name := Text.lower text
    let colons := if isOldPart name then [':'] else colons
    return [.condition (colons ++ Token.nameText name) false]
  | .call name inside =>
    match called? inner colons (Text.lower name) inside with
    | some simples => return simples
    | none => failure
  | _ => failure

def condition (inner : Inner) : Grammar (List Simple) :=
  (do
    let text ← satisfying fun
      | .token (.hash text true) => some ('#' :: Token.nameText text)
      | .block '[' inside => Grammar.whole? bracketed inside
      | _ => none
    return [.condition text false]) <|>
  (do
    mark '.'
    return [.condition ('.' :: Token.nameText (← Grammar.name)) false]) <|>
  (do mark '&'; return [.parent]) <|> pseudo inner

def element : Grammar Simple :=
  (do
    let any : Grammar Text := do mark '*'; return ['*']
    let name : Grammar Text := do return Token.nameText (← Grammar.name)
    let space ← name <|> any <|> pure []
    mark '|'
    return .element (space ++ '|' :: (← name <|> any))) <|>
  (do return .element (Token.nameText (← Grammar.name))) <|> do
    mark '*'
    return .any

def compound (inner : Inner) : Grammar (List Simple) := do
  let parent? ← optional (mark '&')
  let element? ← optional element
  let conditions ← many (condition inner)
  match (parent?.map fun _ => Simple.parent).toList ++ element?.toList ++ conditions.flatten with
  | [] => failure
  | simples => return simples

def marked : Grammar Relation := do
  let _ ← optional blank
  let relation ← (do mark '>'; return .child) <|> (do mark '+'; return .next) <|>
    do mark '~'; return .later
  let _ ← optional blank
  return relation

def grammar (inner : Inner) (isRelative : Bool) : Grammar Selector := do
  let lead ← if isRelative then optional marked else pure none
  let first ← compound inner
  let others ← many (do
    let relation ← marked <|> do blank; return .inside
    return (relation, ← compound inner))
  return { lead, first, others }

/-- A row without comments, with single blanks, and with none at its ends. -/
def squeezed (row : List Component) : List Component :=
  let row := row.filter fun component => !component.isComment
  go ((row.dropWhile Component.isBlank).reverse.dropWhile Component.isBlank).reverse
where
  go : List Component → List Component
    | [] => []
    | [component] => [component]
    | first :: second :: rest =>
      if first.isBlank ∧ second.isBlank then go (second :: rest) else first :: go (second :: rest)

def readFrom? : Nat → Inner
  | 0, _, _ => none
  | depth + 1, isRelative, row =>
    match (grammar (readFrom? depth) isRelative).run (squeezed row) with
    | some (selector, []) => some selector
    | _ => none

/-- The selectors of a rule. In a block they are related to what the block is for. -/
def read? (isNested : Bool) (row : List Component) : Option (List Selector) :=
  (Component.parts ',' row).mapM fun part =>
    (readFrom? Measure.maxDepth isNested part).map fun selector =>
      if isNested then selector.nested else selector

end Selector

end ComponentPack.Stylesheet
