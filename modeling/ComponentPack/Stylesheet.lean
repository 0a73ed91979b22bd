import ComponentPack.Stylesheet.Rule

/-!
Minified stylesheets. Minifying drops comments other than notices at the beginning and the blanks
that separate nothing, and writes each value in its shortest form.
-/

namespace ComponentPack.Stylesheet

/-- The comments that a stylesheet of at most so many characters begins with, as far as they have an
exclamation mark. They are notices that are kept. -/
def noticesFrom : Nat → Text → List Text
  | 0, _ => []
  | size + 1, css =>
    match css.dropWhile Text.isAsciiBlank with
    | '/' :: '*' :: '!' :: rest =>
      let (notice, rest) := (Text.cut? ['*', '/'] rest).getD (rest, [])
      notice :: noticesFrom size rest
    | _ => []

def notices (css : Text) : Text :=
  (noticesFrom css.length css).flatMap fun notice => "/*!" ++ notice ++ "*/\n"

def minify? (css : Text) : Option Text :=
  (Item.read? (Token.scan css)).map fun items => notices css ++ Item.texts items

end ComponentPack.Stylesheet
