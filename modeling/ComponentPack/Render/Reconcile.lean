import ComponentPack.Dictionary
import ComponentPack.Render.Artifact

/-!
Fitting compiled render code to a page that has no imports. Constants get names without a leading
underscore, which the runtime reserves, and the functions of the runtime are reached through a
namespace. Inside the render method, constants are reached through the component.
-/

namespace ComponentPack.Render

open Code

/-- The names that a module expects from its page. -/
structure Runtime where
  register : Text := "app.component"
  /-- The object that holds the functions of the runtime. -/
  api : Text := "Vue"
  /-- The function that gives the localization helper. -/
  useLocalization : Text := "VueI18n.useI18n"
  /-- The object that collects messages. -/
  localizationStore : Text := "i18n.global"
  constantPrefix : Text := "r_itm_"
deriving DecidableEq, Repr

/-- The names of runtime functions that are imported anywhere in a pass. -/
abbrev ImportSet := Dictionary Text Unit

namespace ImportSet

def ofNames (names : List Text) : ImportSet := .ofList (names.map fun name => (name, ()))

def ofArtifacts (artifacts : List Artifact) : ImportSet :=
  ofNames (artifacts.flatMap Artifact.importedNames)

end ImportSet

structure Reconciled where
  constants : List Text
  /-- The names of the constants that the component offers to its render method. -/
  exposed : List Text
  render : Text
deriving DecidableEq, Repr

inductive Scope where
  | setup
  | method
deriving DecidableEq, Repr

namespace Runtime

def hoistedPrefix : Text := "_hoisted_"

/-- The public name of a constant that begins with an underscore. -/
def constantName? (runtime : Runtime) (name : Text) : Option Text :=
  match hoistedPrefix.isPrefixOf? name with
  | some rest => some (runtime.constantPrefix ++ rest)
  | none => (['_'].isPrefixOf? name).map fun rest => runtime.constantPrefix ++ rest

/-- The public name of a declared constant: without an underscore it keeps its name. -/
def publicName (runtime : Runtime) (name : Text) : Text := (runtime.constantName? name).getD name

def declaredNames (artifact : Artifact) : List Text :=
  artifact.constants.filterMap Declaration.name

def appendNew (names : List Text) (name : Text) : List Text :=
  if names.contains name then names else names ++ [name]

/-- The public names of the declared constants, each once, in the order of declaration. -/
def exposedNames (runtime : Runtime) (artifact : Artifact) : List Text :=
  ((declaredNames artifact).map runtime.publicName).foldl appendNew []

/-- The public name of a constant that an identifier stands for. -/
def constant? (runtime : Runtime) (artifact : Artifact) (name : Text) : Option Text :=
  if (declaredNames artifact).contains name then some (runtime.publicName name)
  else if hoistedPrefix.isPrefixOf name then runtime.constantName? name
  else none

/-- The runtime function that an alias of an import stands for; of two imports with one alias the
last counts. -/
def helper? (artifact : Artifact) (imports : ImportSet) (name : Text) : Option Text :=
  (artifact.imports.reverse.find? fun spec =>
    spec.localName = name ∧ imports.contains spec.imported).map Import.imported

/-- The runtime function that an identifier stands for: one of the artifact's own imports, or one
of the pass whose name follows an underscore. -/
def function? (artifact : Artifact) (imports : ImportSet) (name : Text) : Option Text :=
  match helper? artifact imports name with
  | some api => some api
  | none => (['_'].isPrefixOf? name).filter fun api => imports.contains api

def substitute? (runtime : Runtime) (artifact : Artifact) (imports : ImportSet) (scope : Scope)
    (name : Text) : Option Text :=
  match runtime.constant? artifact name with
  | some constant =>
    match scope with
    | .setup => some constant
    | .method => some ("this." ++ constant)
  | none => (function? artifact imports name).map fun api => runtime.api ++ '.' :: api

def reconcile (runtime : Runtime) (artifact : Artifact) (imports : ImportSet) : Reconciled where
  constants := artifact.constants.map fun declaration =>
    declaration.code.render (runtime.substitute? artifact imports .setup)
  exposed := runtime.exposedNames artifact
  render := artifact.render.render (runtime.substitute? artifact imports .method)

end Runtime

end ComponentPack.Render
