import ComponentPack.Localization.Table
import ComponentPack.Module.Literal
import ComponentPack.Render.Reconcile

/-!
The module of a component: it registers the component under its name, merges its messages into the
store of the page, and carries the render method, or in debug builds the template.
-/

namespace ComponentPack.Module

open Render

inductive Attachment where
  | compiled (render : Reconciled)
  | template (text : Text)
deriving DecidableEq, Repr

def line (text : Text) : Text := text ++ ['\n']

def ifAny (text : Text) (lines : Text → Text) : Text := if text.isEmpty then [] else lines text

def constantLines : Attachment → Text
  | .compiled render => ifAny (indent 4 (Text.joinLines render.constants)) line
  | .template _ => []

/-- The names that the setup function returns: the localization helper, and the constants. -/
def exposedNames : Attachment → List Text
  | .compiled render => ['t'] :: render.exposed
  | .template _ => [['t']]

def templateLines (embedded : Text) : Text :=
  line "  template: '\\" ++ line ("  " ++ embedded ++ "',")

/-- The member that renders. Render code that is empty leaves a literal without a template. -/
def renderLines : Attachment → Text
  | .compiled render =>
    if render.render.isEmpty then templateLines "None"
    else line ("  " ++ indentTail 2 render.render ++ [','])
  | .template text => templateLines (embed text)

def assemble (runtime : Runtime) (name : Text) (attachment : Attachment) (members : Text)
    (messages : Localization.Table) : Text :=
  let name := escapeName name
  line (runtime.register ++ "('" ++ name ++ "', \x7b") ++
    line ("  name: '" ++ name ++ "',") ++
    line "  setup() \x7b" ++
    constantLines attachment ++
    line ("    const \x7b t \x7d = " ++ runtime.useLocalization ++
      "(\x7b\x7d);") ++
    line ("    const localeMessages = " ++ indentTail 4 messages.pretty ++ [';']) ++
    line "    Object.keys(localeMessages).forEach((locale) => \x7b" ++
    line ("      " ++ runtime.localizationStore ++
      ".mergeLocaleMessage(locale, localeMessages[locale]);") ++
    line "    \x7d);" ++
    line ("    return \x7b " ++ List.intercalate ", " (exposedNames attachment) ++
      " \x7d;") ++
    line "  \x7d," ++
    renderLines attachment ++
    ifAny (Text.trim members) (fun members => line ("  " ++ members)) ++
    line "\x7d)"

end ComponentPack.Module
