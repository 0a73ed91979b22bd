import ComponentPack.Stylesheet.Component

/-!
Grammars of values. A grammar takes components from the beginning of a row without blanks, or fails
and leaves the row to another one. What it gives is mostly the shortest text of what it has taken.
-/

namespace ComponentPack.Stylesheet

abbrev Grammar (α : Type) := StateT (List Component) Option α

namespace Grammar

variable {α : Type}

def whole? (grammar : Grammar α) (row : List Component) : Option α :=
  match grammar.run (Component.solid row) with
  | some (value, []) => some value
  | _ => none

def next : Grammar Component
  | [] => none
  | component :: rest => some (component, rest)

def satisfying (view? : Component → Option α) : Grammar α := do
  match view? (← next) with
  | some value => return value
  | none => failure

def finished : Grammar Unit
  | [] => some ((), [])
  | _ => none

/-- What a grammar takes as often as it can; each time it takes something. -/
def many (grammar : Grammar α) : Grammar (List α) :=
  fun row => go row.length row
where
  go : Nat → List Component → Option (List α × List Component)
    | 0, row => some ([], row)
    | size + 1, row =>
      match grammar.run row with
      | some (value, rest) =>
        if rest.length < row.length then
          (go size rest).map fun (values, rest) => (value :: values, rest)
        else some ([], row)
      | none => some ([], row)

def repeated (grammar : Grammar α) : Grammar (List α) := do
  match ← many grammar with
  | [] => failure
  | values => return values

def listed (grammar : Grammar α) : Grammar (List α) := fun row =>
  ((Component.parts ',' row).mapM (whole? grammar)).map fun values => (values, [])

def listedText (grammar : Grammar Text) : Grammar Text := do
  return List.intercalate [','] (← listed grammar)

/-- What each of some grammars takes, in any order, and each at most once. Before each step those
that have not taken anything are tried in turn. -/
def anyOrder (grammars : List (Grammar α)) : Grammar (List (Option α)) :=
  fun row => go grammars.length (grammars.map fun _ => none) row
where
  /-- The first grammar that takes something, with the values after it. -/
  step? : List (Grammar α) → List (Option α) → List Component →
      Option (List (Option α) × List Component)
    | grammar :: grammars, none :: taken, row =>
      match grammar.run row with
      | some (value, rest) => some (some value :: taken, rest)
      | none => (step? grammars taken row).map fun (taken, rest) => (none :: taken, rest)
    | _ :: grammars, value :: taken, row =>
      (step? grammars taken row).map fun (taken, rest) => (value :: taken, rest)
    | _, _, _ => none
  go : Nat → List (Option α) → List Component → Option (List (Option α) × List Component)
    | 0, taken, row => some (taken, row)
    | size + 1, taken, row =>
      match step? grammars taken row with
      | some (taken, rest) => go size taken rest
      | none => some (taken, row)

def name : Grammar Text := satisfying fun
  | .token (.name text) => some text
  | _ => none

def word (text : String) : Grammar Text := do
  if Text.lower (← name) = text.toList then return text.toList else failure

def oneOf (words : List String) : Grammar Text := do
  let text := Text.lower (← name)
  if words.any fun word => word.toList = text then return text else failure

def mark (c : Char) : Grammar Unit := satisfying fun component =>
  if component.isMark c then some () else none

def quoted : Grammar Text := satisfying fun
  | .token (.quoted text) => some text
  | _ => none

def number : Grammar Rat := satisfying fun
  | .token (.number value []) => some value.value
  | _ => none

def integer : Grammar Int := satisfying fun
  | .token (.number value []) => if value.isWhole then some value.value.num else none
  | _ => none

/-- What stands in the parentheses after one of some names, and the name in small letters. -/
def called (names : List String) : Grammar (Text × List Component) := satisfying fun
  | .call name inside =>
    let name := Text.lower name
    if names.any fun known => known.toList = name then some (name, inside) else none
  | _ => none

def callOf (name : String) (grammar : Grammar α) : Grammar α := do
  let (_, inside) ← called [name]
  match whole? grammar inside with
  | some value => return value
  | none => failure

def spaced (texts : List Text) : Text := List.intercalate [' '] texts

def callText (name : String) (texts : List Text) : Text :=
  name.toList ++ '(' :: List.intercalate [','] texts ++ [')']

/-- Values in any order, each with a text that need not be written. If all need not, the text for
that is written. There is at least one. -/
def shorthand (ifNone : String) (slots : List (String × Grammar Text)) : Grammar Text := do
  let taken ← anyOrder (slots.map Prod.snd)
  if taken.all Option.isNone then failure
  let texts := (slots.zip taken).filterMap fun (slot, text?) =>
    text?.filter (· ≠ slot.1.toList)
  return if texts.isEmpty then ifNone.toList else spaced texts

/-- Two values, of which the second is written only if it is another one. -/
def pair (grammar : Grammar Text) : Grammar Text := do
  let first ← grammar
  match ← optional grammar with
  | some second => return if second = first then first else spaced [first, second]
  | none => return first

/-- Leaves out sides that are as the ones opposite to them. -/
def sides (top right bottom left : Text) : Text :=
  if left ≠ right then spaced [top, right, bottom, left]
  else if bottom ≠ top then spaced [top, right, bottom]
  else if right ≠ top then spaced [top, right]
  else top

def box (grammar : Grammar α) : Grammar (α × α × α × α) := do
  let top ← grammar
  let right? ← optional grammar
  let bottom? ← if right?.isSome then optional grammar else pure none
  let left? ← if bottom?.isSome then optional grammar else pure none
  let right := right?.getD top
  return (top, right, bottom?.getD top, left?.getD right)

def boxText (grammar : Grammar Text) : Grammar Text := do
  let (top, right, bottom, left) ← box grammar
  return sides top right bottom left

end Grammar

end ComponentPack.Stylesheet
