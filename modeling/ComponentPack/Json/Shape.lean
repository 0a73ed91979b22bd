import ComponentPack.Json.Value
import ComponentPack.Text.Quoted

/-!
Shapes that a JSON document may be asked to have. A reader that knows the shape refuses a value of
another kind at the place where it stands.
-/

namespace ComponentPack.Json

/-- What a value has to be. -/
inductive Shape where
  | any
  /-- A value that is passed over. -/
  | skipped
  | map (item : Shape)
  | list (item : Shape)
  /-- A string; `wanted` is what a message calls it. -/
  | text (wanted : Text)
  | optionalText (wanted : Text)
  /-- An object with known fields, each with a mark whether it is required. Other fields are passed
  over. It may also be written as the array of its fields. -/
  | record (name : Text) (fields : List (Text × Bool × Shape))

namespace Shape

def wanted : Shape → Text
  | any | skipped => "any value"
  | map _ => "a map"
  | list _ => "a sequence"
  | text wanted | optionalText wanted => wanted
  | record name _ => "struct " ++ name

def admits : Shape → Json → Bool
  | any, _ | skipped, _ => true
  | text _, .string _ => true
  | optionalText _, .string _ => true
  | optionalText _, .null => true
  | _, _ => false

end Shape

def describe : Json → Text
  | null => "null"
  | bool true => "boolean `true`"
  | bool false => "boolean `false`"
  | number (.integer i) => "integer `" ++ Text.ofInt i ++ "`"
  | number (.float x) => "floating point `" ++ Number.render (.float x) ++ "`"
  | string s => "string " ++ Text.quoted s
  | array _ => "sequence"
  | object _ => "map"

end ComponentPack.Json
