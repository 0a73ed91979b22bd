import ComponentPack.Text.Basic

/-!
TOML values.
-/

namespace ComponentPack.Toml

/-- A value. Floats, dates and times are kept as they are written. -/
inductive Value where
  | string (text : Text)
  | integer (value : Int)
  | float (written : Text)
  | boolean (value : Bool)
  | dateTime (written : Text)
  | array (items : List Value)
  | table (members : List (Text × Value))
deriving Repr

def member? (key : Text) : List (Text × Value) → Option Value
  | [] => none
  | (name, value) :: members => if name = key then some value else member? key members

end ComponentPack.Toml
