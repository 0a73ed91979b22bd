import ComponentPack.Code.Lexeme

/-!
Code as a row of plain texts and substitution points. Only a substitution point may be replaced;
everything else is copied.
-/

namespace ComponentPack.Code

inductive Segment where
  | plain (text : Text)
  | identifier (name : Text)
deriving DecidableEq, Repr

namespace Segment

/-- The segments of lexemes: neighbouring plain lexemes make one text. -/
def ofLexemes : List Lexeme → List Segment
  | [] => []
  | .identifier name :: lexemes => identifier name :: ofLexemes lexemes
  | lexeme :: lexemes =>
    match ofLexemes lexemes with
    | plain text :: segments => plain (lexeme.text ++ text) :: segments
    | segments => plain lexeme.text :: segments

def identifier? : Segment → Option Text
  | plain _ => none
  | identifier name => some name

/-- The text of a segment under a substitution; what has no substitute stays. -/
def render (substitute : Text → Option Text) : Segment → Text
  | plain text => text
  | identifier name => (substitute name).getD name

end Segment

structure Fragment where
  segments : List Segment
deriving DecidableEq, Repr

namespace Fragment

def parse (code : Text) : Fragment := ⟨Segment.ofLexemes (Lexeme.scan code)⟩

def identifiers (fragment : Fragment) : List Text := fragment.segments.filterMap Segment.identifier?

def render (fragment : Fragment) (substitute : Text → Option Text) : Text :=
  fragment.segments.flatMap (Segment.render substitute)

def source (fragment : Fragment) : Text := fragment.render fun _ => none

end Fragment

end ComponentPack.Code
