import ComponentPack.Stylesheet.Condition
import ComponentPack.Stylesheet.Property
import ComponentPack.Stylesheet.Selector

/-!
What stands before the block of a rule: selectors, places in the course of an animation, or a name
after `@` with what follows it.
-/

namespace ComponentPack.Stylesheet

open Grammar

namespace Lead

def place : Grammar Text :=
  (do let _ ← word "from"; return "0%") <|> word "to" <|> do
    let text ← Measure.percentage
    return if text = "100%" then "to" else text

def places? (row : List Component) : Option Text := whole? (listedText place) row

def plainName (name : Text) : Text :=
  match Text.lower name with
  | '-' :: rest => (rest.dropWhile (· ≠ '-')).drop 1
  | name => name

inductive Content where
  /-- The same as around it. -/
  | same
  | declarations
  | places
  /-- Tokens of which nothing is known. -/
  | tokens
deriving DecidableEq, Repr

def contentOf (name : Text) : Content :=
  match String.ofList (plainName name) with
  | "media" | "supports" | "layer" | "container" | "scope" | "starting-style" | "document" => .same
  | "font-face" | "page" | "property" | "counter-style" | "viewport" | "font-palette-values"
  | "position-try" => .declarations
  | "keyframes" => .places
  | _ => .tokens

def takesBlock (name : Text) : Bool :=
  plainName name ∉ ["import", "namespace", "charset"].map String.toList

def standsAlone (name : Text) : Bool :=
  contentOf name = .tokens || plainName name = "layer"

def withoutAddresses (row : List Component) : List Component :=
  row.map fun
    | .token (.address text) => .token (.quoted text)
    | .call name [.token (.quoted text)] =>
      if Text.lower name = "url" then .token (.quoted text)
      else .call name [.token (.quoted text)]
    | component => component

def following? (name : Text) (row : List Component) : Option Text :=
  match String.ofList (plainName name) with
  | "media" => Condition.devices? row
  | "supports" => Condition.known? row
  | "container" => Condition.container? row
  | "keyframes" => whole? Property.Motion.animationName row
  | "import" | "namespace" => Plain.text? (withoutAddresses row)
  | _ => Plain.text? row

/-- Whether a rule applies always, so that it stands for what is in its block. -/
def isAlways (name following : Text) : Bool := plainName name = "media" && following.isEmpty

def text (name following : Text) : Text :=
  let name := if contentOf name = .tokens ∧ takesBlock name then name else Text.lower name
  '@' :: Token.nameText name ++ if following.isEmpty then [] else ' ' :: following

end Lead

end ComponentPack.Stylesheet
