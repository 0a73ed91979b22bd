import ComponentPack.Text.Basic

/-!
The four sections of a component, and what can be wrong with the sections of a source.
-/

namespace ComponentPack.Component

inductive Section where
  | template
  | script
  | style
  | localization
deriving DecidableEq, Repr

namespace Section

/-- Every kind, in the order in which the sections of a source are checked. -/
def all : List Section := [template, script, style, localization]

def tag : Section → Text
  | template => "template"
  | script => "script"
  | style => "style"
  | localization => "i18n"

def ofTag? (name : Text) : Option Section := all.find? fun kind => kind.tag = name

/-- Raw sections end at their first close tag; only markup nests. -/
def isRaw : Section → Bool
  | template => false
  | _ => true

def isRequired : Section → Bool
  | template | script => true
  | style | localization => false

/-- How many sections of a kind a source may have. -/
def admits (kind : Section) (count : Nat) : Bool :=
  if kind.isRequired then count == 1 else count ≤ 1

end Section

inductive SectionError where
  | requiredCount (kind : Section) (found : Nat)
  | optionalCount (kind : Section) (found : Nat)
  | unclosed (tag : Text) (offset : Nat)
  | unterminatedComment (offset : Nat)
  | missingDefaultExport
deriving DecidableEq, Repr

namespace SectionError

def message : SectionError → Text
  | requiredCount kind found =>
    "must contain exactly one <" ++ kind.tag ++ "> root element, found " ++
      Text.ofNat found
  | optionalCount kind found =>
    "must contain no or one <" ++ kind.tag ++ "> root element, found " ++
      Text.ofNat found
  | unclosed tag offset =>
    "unclosed <" ++ tag ++ "> element at byte " ++ Text.ofNat offset
  | unterminatedComment offset => "unterminated comment at byte " ++ Text.ofNat offset
  | missingDefaultExport =>
    "<script> section must be an `export default \x7b ... \x7d` object"

end SectionError

end ComponentPack.Component
