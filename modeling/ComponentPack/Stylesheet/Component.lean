import ComponentPack.Stylesheet.Token

/-!
Tokens in their brackets: a value is a row of single tokens, calls and blocks.
-/

namespace ComponentPack.Stylesheet

inductive Component where
  | token (token : Token)
  | call (name : Text) (inside : List Component)
  | block (opening : Char) (inside : List Component)

namespace Component

/-- Reads components up to a closing bracket, and gives the rest; there are at most so many tokens.
-/
def readFrom : Nat → List Token → List Component × List Token
  | 0, _ | _, [] => ([], [])
  | size + 1, item :: rest =>
    if item.isCloser then ([], rest)
    else
      match item, item.closer? with
      | .call name, _ =>
        let (inside, rest) := readFrom size rest
        let (others, rest) := readFrom size rest
        (call name inside :: others, rest)
      | .mark opening, some _ =>
        let (inside, rest) := readFrom size rest
        let (others, rest) := readFrom size rest
        (block opening inside :: others, rest)
      | item, _ =>
        let (others, rest) := readFrom size rest
        (token item :: others, rest)

def read (tokens : List Token) : List Component := (readFrom tokens.length tokens).1

def isBlank : Component → Bool
  | token .blank | token .comment => true
  | _ => false

def isComment : Component → Bool
  | token .comment => true
  | _ => false

def solid (components : List Component) : List Component := components.filter fun c => !c.isBlank

def isMark (c : Char) : Component → Bool
  | token (.mark d) => c == d
  | _ => false

def parts (c : Char) : List Component → List (List Component)
  | [] => [[]]
  | component :: rest =>
    if component.isMark c then [] :: parts c rest
    else
      match parts c rest with
      | [] => [[component]]
      | part :: others => (component :: part) :: others

end Component

end ComponentPack.Stylesheet
