import ComponentPack.Component.Markup
import ComponentPack.Component.Script

/-!
The sections of a component source: exactly one template and one script, at most one style sheet
and one localization. Blocks of other names are ignored.
-/

namespace ComponentPack.Component

/-- The contents of the four sections, without the blanks around them. -/
structure Sections where
  template : Text
  script : Text
  /-- Empty if the component has no style sheet. -/
  style : Text
  /-- An empty object if the component has no localization. -/
  localization : Text
deriving DecidableEq, Repr

namespace Sections

def noLocalization : Text := "\x7b\x7d"

def contents (kind : Section) (blocks : List Block) : List Text :=
  (blocks.filter fun block => block.tag = kind.tag).map fun block => Text.trim block.content

/-- The first kind whose number of blocks is not admitted, as an error. -/
def countError? (kinds : List Section) (blocks : List Block) : Option SectionError :=
  kinds.findSome? fun kind =>
    let count := (contents kind blocks).length
    if kind.admits count then none
    else if kind.isRequired then some (.requiredCount kind count)
    else some (.optionalCount kind count)

def ofBlocks (blocks : List Block) : Except SectionError Sections :=
  match countError? Section.all blocks with
  | some e => .error e
  | none =>
    let single (kind : Section) (absent : Text) : Text := (contents kind blocks).headD absent
    .ok {
      template := single .template []
      script := single .script []
      style := single .style []
      localization := single .localization noLocalization }

def extract (source : Text) : Except SectionError Sections :=
  match scan source with
  | .error e => .error e
  | .ok blocks => ofBlocks blocks

def hasStyle (sections : Sections) : Bool := !sections.style.isEmpty

def members (sections : Sections) : Except SectionError Text := Script.members sections.script

end Sections

def extractLocalization (source : Text) : Except SectionError Text :=
  match scan source with
  | .error e => .error e
  | .ok blocks =>
    match Sections.countError? [.localization] blocks with
    | some e => .error e
    | none => .ok ((Sections.contents .localization blocks).headD Sections.noLocalization)

end ComponentPack.Component
