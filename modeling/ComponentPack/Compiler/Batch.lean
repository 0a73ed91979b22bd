import ComponentPack.Json.Printer
import ComponentPack.Json.Reader
import ComponentPack.Path

/-!
The templates of a pass, as they are handed to a compiler at once, and what the compiler answers for
single components.
-/

namespace ComponentPack.Compiler

structure Request where
  /-- The path of the component; the answer is matched by it. -/
  path : Path
  id : Text
  template : Text
deriving DecidableEq, Repr

structure Batch where
  components : List Request
  production : Bool := true
  comments : Bool := false
deriving DecidableEq, Repr

def Request.toJson (request : Request) : Json :=
  .object [
    ("path", .string request.path.text),
    ("id", .string request.id),
    ("template", .string request.template)]

def Batch.toJson (batch : Batch) : Json :=
  .object [
    ("production", .bool batch.production),
    ("comments", .bool batch.comments),
    ("components", .array (batch.components.map Request.toJson))]

structure Outcome where
  path : Path
  code : Option Text := none
  error : Option Text := none
deriving DecidableEq, Repr

namespace Outcome

def shape : Json.Shape :=
  .record "CompileOutcome" [
    ("path", true, .text "path string"),
    ("code", false, .optionalText "a string"),
    ("error", false, .optionalText "a string")]

def responseShape : Json.Shape :=
  .record "DriverResponse" [("results", true, .list shape)]

def ofJson (value : Json) : Outcome where
  path := ⟨((value.member? "path").bind Json.text?).getD []⟩
  code := (value.member? "code").bind Json.text?
  error := (value.member? "error").bind Json.text?

def parseResponse (response : ByteArray) : Except Json.ReadError (List Outcome) :=
  match Json.readBytes responseShape response with
  | .error e => .error e
  | .ok value => .ok ((((value.member? "results").bind Json.items?).getD []).map ofJson)

end Outcome

end ComponentPack.Compiler
