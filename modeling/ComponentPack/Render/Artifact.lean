import ComponentPack.Code.Fragment
import ComponentPack.Text.Word

/-!
Compiled render code, cut at two markers into the list of imports, the declarations of constants
and the render function.
-/

namespace ComponentPack.Render

open Code

/-- A function of the runtime that the code imports, and the name that it has there. -/
structure Import where
  imported : Text
  localName : Text
deriving DecidableEq, Repr

structure Declaration where
  /-- The name that the statement declares, if it begins with a declaration. -/
  name : Option Text
  code : Fragment
deriving DecidableEq, Repr

structure Artifact where
  imports : List Import
  constants : List Declaration
  render : Fragment
deriving DecidableEq, Repr

inductive ArtifactError where
  | missingRender
  | malformedImport (clause : Text)
deriving DecidableEq, Repr

def ArtifactError.message : ArtifactError → Text
  | missingRender => "render artifact has no `export function render` declaration"
  | malformedImport clause => "malformed import line: " ++ clause

def importMarker : Text := "from \"vue\""

def renderMarker : Text := "export function render"

def isNameStart (c : Char) : Bool := c.isAlpha || c == '_' || c == '$'

def isNameChar (c : Char) : Bool := Text.isWordChar c || c == '$'

def name? (text : Text) : Option (Text × Text) :=
  match text with
  | [] => none
  | c :: rest =>
    if isNameStart c then some (c :: rest.takeWhile isNameChar, rest.dropWhile isNameChar)
    else none

def afterBlanks? (text : Text) : Option Text :=
  match text with
  | [] => none
  | c :: rest => if Text.isBlank c then some (Text.trimStart rest) else none

namespace Import

def parse? (item : Text) : Option Import :=
  match name? item with
  | none => none
  | some (imported, []) => some ⟨imported, imported⟩
  | some (imported, rest) =>
    match (afterBlanks? rest).bind (fun rest => "as".toList.isPrefixOf? rest) with
    | none => none
    | some rest =>
      match (afterBlanks? rest).bind name? with
      | some (localName, []) => some ⟨imported, localName⟩
      | _ => none

/-- The items of an import list, without blanks around them; empty items do not count. -/
def items (list : Text) : List Text :=
  ((Text.splitAll ',' list).map Text.trim).filter fun item => !item.isEmpty

/-- Reads an import clause: the items between its first and its last brace. -/
def parseClause (clause : Text) : Except ArtifactError (List Import) :=
  let list? := (Text.cut? ['\x7b'] clause).bind fun (_, rest) => Text.cutLast? '\x7d' rest
  match list?.bind fun (list, _) => (items list).mapM parse? with
  | some imports => .ok imports
  | none => .error (.malformedImport (Text.trim clause))

end Import

namespace Declaration

def keywords : List Text := ["const", "let", "var", "function"].map String.toList

def startsIn (line : Text) : Bool := keywords.any fun word => (word ++ [' ']).isPrefixOf line

def declaredName? (statement : Text) : Option Text :=
  keywords.findSome? fun word =>
    match ((word.isPrefixOf? statement).bind afterBlanks?).bind name? with
    | some (name, _) => some name
    | none => none

/-- Joins the lines of each statement. A line that begins no declaration belongs to the statement
before it, of which the lines are given. -/
def groupAfter (current : List Text) : List Text → List (List Text)
  | [] => [current]
  | line :: lines =>
    if startsIn line then current :: groupAfter [line] lines
    else groupAfter (current ++ [line]) lines

def group : List Text → List (List Text)
  | [] => []
  | line :: lines => groupAfter [line] lines

def ofStatement (statement : Text) : Declaration :=
  ⟨declaredName? statement, Fragment.parse statement⟩

def statements (block : Text) : List Text :=
  ((group (Text.lines block)).map fun lines => Text.trim (Text.joinLines lines)).filter
    fun statement => !statement.isEmpty

def parseBlock (block : Text) : List Declaration := (statements block).map ofStatement

end Declaration

namespace Artifact

/-- The block of declarations without the blanks around it and without a leading semicolon. -/
def constantsBlock (text : Text) : Text :=
  match Text.trim text with
  | ';' :: rest => rest
  | text => text

def parse (code : Text) : Except ArtifactError Artifact :=
  match Text.cut? renderMarker code with
  | none => .error .missingRender
  | some (head, tail) =>
    let render := Fragment.parse ("render" ++ Text.trimEnd tail)
    match Text.cut? importMarker head with
    | none => .ok ⟨[], Declaration.parseBlock (constantsBlock head), render⟩
    | some (clause, rest) =>
      match Import.parseClause clause with
      | .error e => .error e
      | .ok imports => .ok ⟨imports, Declaration.parseBlock (constantsBlock rest), render⟩

def importedNames (artifact : Artifact) : List Text := artifact.imports.map Import.imported

end Artifact

end ComponentPack.Render
