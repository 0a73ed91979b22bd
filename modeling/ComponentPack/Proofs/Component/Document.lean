import ComponentPack.Component.Sections
import Mathlib.Data.List.Infix

/-!
Written components. A document is a row of top-level items: blocks of the four kinds, comments and
text. The content of a template is a markup tree, that of every other block raw text. Each part
carries the conditions under which it may be written, so that every document can be printed and
what it declares can be read off it without a scanner.
-/

set_option autoImplicit false

namespace ComponentPack.Component.Document

/-- Blanks inside a tag. -/
structure Gap where
  text : Text
  blank : ∀ c ∈ text, Text.isAsciiBlank c = true

/-- A tag name in any letter case: a letter, then letters, digits and hyphens. -/
structure TagName where
  first : Char
  others : Text
  letter : first.isAlpha = true
  named : ∀ c ∈ others, OpenTag.isNameChar c = true

def TagName.text (name : TagName) : Text := name.first :: name.others

/-- The value of an attribute in quotes, with its equals sign. -/
structure Value where
  before : Gap
  after : Gap
  quote : Char
  text : Text
  isQuote : quote = '"' ∨ quote = '\''
  /-- The quote that ends the value does not stand inside of it. -/
  closed : quote ∉ text

def Value.print (value : Value) : Text :=
  value.before.text ++ '=' :: value.after.text ++ value.quote :: value.text ++ [value.quote]

/-- The characters of an attribute name. -/
def isAttributeChar (c : Char) : Bool :=
  !Text.isAsciiBlank c && c != '"' && c != '\'' && c != '>' && c != '/' && c != '='

/-- An attribute with the blanks before it. -/
structure Attribute where
  gap : Gap
  apart : gap.text ≠ []
  name : Text
  named : name ≠ []
  plain : ∀ c ∈ name, isAttributeChar c = true
  value : Option Value

def Attribute.print (pair : Attribute) : Text :=
  pair.gap.text ++ pair.name ++ (pair.value.map Value.print).getD []

/-- An opening tag: a name, attributes and blanks before the end. -/
structure Opening where
  name : TagName
  attributes : List Attribute
  gap : Gap

namespace Opening

/-- What stands between the name and the end of the tag. -/
def span (tag : Opening) : Text := tag.attributes.flatMap Attribute.print ++ tag.gap.text

def print (tag : Opening) : Text := '<' :: tag.name.text ++ tag.span ++ ['>']

/-- The tag of an element that has no content. -/
def printEmpty (tag : Opening) : Text := '<' :: tag.name.text ++ tag.span ++ ['/', '>']

/-- The name in lower case. -/
def key (tag : Opening) : Text := Text.lower tag.name.text

end Opening

/-- A close tag. -/
structure Closing where
  name : TagName
  gap : Gap

namespace Closing

def print (tag : Closing) : Text := '<' :: '/' :: tag.name.text ++ tag.gap.text ++ ['>']

/-- The name in lower case. -/
def key (tag : Closing) : Text := Text.lower tag.name.text

end Closing

/-- The beginning of a close tag of a template does not occur in a text, in any letter case. -/
def ClosesNoTemplate (text : Text) : Prop := ¬ "</template" <:+: Text.lower text

/-- No value of an attribute holds the beginning of a close tag of a template. -/
def Opening.Harmless (tag : Opening) : Prop :=
  ∀ pair ∈ tag.attributes, ∀ value ∈ pair.value, ClosesNoTemplate value.text

/-- A row of markup nodes, each with the nodes that follow it. -/
inductive Markup where
  | done
  | text (written : Text) (plain : ∀ c ∈ written, c ≠ '<' ∧ c ≠ '\x7b') (next : Markup)
  | comment (body : Text) (closed : ¬ "-->" <:+: body) (next : Markup)
  /-- An expression between double braces. -/
  | interpolation (expression : Text) (closed : ¬ ['\x7d', '\x7d'] <:+: expression)
      (inside : ClosesNoTemplate expression) (next : Markup)
  /-- An element that is closed by its own tag. -/
  | selfClosing (tag : Opening) (harmless : tag.Harmless) (next : Markup)
  /-- An element without a close tag, such as a line break. -/
  | void (tag : Opening) (harmless : tag.Harmless) (other : tag.key ≠ Section.template.tag)
      (next : Markup)
  /-- An element with its content, templates included. -/
  | element (tag : Opening) (harmless : tag.Harmless) (children : Markup) (closing : Closing)
      (balanced : closing.key = tag.key) (next : Markup)

def Markup.print : Markup → Text
  | done => []
  | text written _ next => written ++ next.print
  | comment body _ next => "<!--" ++ body ++ "-->" ++ next.print
  | interpolation expression _ _ next =>
    ['\x7b', '\x7b'] ++ expression ++ ['\x7d', '\x7d'] ++ next.print
  | selfClosing tag _ next => tag.printEmpty ++ next.print
  | void tag _ _ next => tag.print ++ next.print
  | element tag _ children closing _ next =>
    tag.print ++ children.print ++ closing.print ++ next.print

/-- No close tag of a kind occurs in a text, in any letter case. -/
def ClosesNone (kind : Section) (text : Text) : Prop :=
  ∀ closing : Closing, closing.key = kind.tag → ¬ closing.print <:+: text

/-- A top-level item. -/
inductive Item where
  | text (written : Text) (plain : '<' ∉ written)
  | comment (body : Text) (closed : ¬ "-->" <:+: body)
  | template (tag : Opening) (content : Markup) (closing : Closing)
      (opened : tag.key = Section.template.tag) (closed : closing.key = Section.template.tag)
  /-- A script, a style sheet or a localization. -/
  | raw (kind : Section) (isRaw : kind.isRaw = true) (tag : Opening) (content : Text)
      (closing : Closing) (opened : tag.key = kind.tag) (closed : closing.key = kind.tag)
      (inside : ClosesNone kind content)

namespace Item

def print : Item → Text
  | text written _ => written
  | comment body _ => "<!--" ++ body ++ "-->"
  | template tag content closing _ _ => tag.print ++ content.print ++ closing.print
  | raw _ _ tag content closing _ _ _ => tag.print ++ content ++ closing.print

/-- The kind and the printed content of a block. -/
def block? : Item → Option (Section × Text)
  | text _ _ | comment _ _ => none
  | template _ content _ _ _ => some (.template, content.print)
  | raw kind _ _ content _ _ _ _ => some (kind, content)

end Item

/-- The text of a document. -/
def print (items : List Item) : Text := items.flatMap Item.print

/-- The printed contents of the blocks of a kind, in order. -/
def contents (kind : Section) (items : List Item) : List Text :=
  ((items.filterMap Item.block?).filter fun block => block.1 = kind).map Prod.snd

/-- What the number of blocks of each kind lets complain about: the kinds in their order, the
first one that is missing or repeated. -/
def miscount? (items : List Item) : Option SectionError :=
  let count (kind : Section) : Nat := (contents kind items).length
  if count .template ≠ 1 then some (.requiredCount .template (count .template))
  else if count .script ≠ 1 then some (.requiredCount .script (count .script))
  else if 1 < count .style then some (.optionalCount .style (count .style))
  else if 1 < count .localization then some (.optionalCount .localization (count .localization))
  else none

end ComponentPack.Component.Document
