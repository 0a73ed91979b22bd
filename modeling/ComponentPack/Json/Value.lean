import ComponentPack.Dictionary
import ComponentPack.Number.Shortest

/-!
JSON values. What is read has the members of an object in ascending order of their keys, one for
each key; what is built may have them in any order, in which they are then written.
`Json.ofMembers` sorts members.
-/

namespace ComponentPack

namespace Json

/-- A number is kept as an integer if it fits in 64 bits, signed or unsigned. -/
inductive Number where
  | integer (value : Int)
  | float (value : Binary64)
deriving DecidableEq, Repr

namespace Number

/-- Floats are written without an exponent from `0.00001` up to below `10 ^ 16`. -/
def layout : Decimal.Layout := ⟨-5, 15⟩

def render : Number → Text
  | integer i => Text.ofInt i
  | float x => Decimal.render layout x

end Number

end Json

inductive Json where
  | null
  | bool (value : Bool)
  | number (value : Json.Number)
  | string (value : Text)
  | array (items : List Json)
  | object (members : List (Text × Json))
deriving Repr

namespace Json

/-- An object whose members are given in any order; the last member of a key counts. -/
def ofMembers (members : List (Text × Json)) : Json :=
  object (Dictionary.ofList members).entries

def ofNat (n : Nat) : Json := number (.integer n)

def member? : Json → Text → Option Json
  | object members, key => Dictionary.lookup key members
  | _, _ => none

def text? : Json → Option Text
  | string s => some s
  | _ => none

def items? : Json → Option (List Json)
  | array items => some items
  | _ => none

end Json

end ComponentPack
