import ComponentPack.Compiler.Compiled
import ComponentPack.Component.Section
import ComponentPack.Component.Source
import ComponentPack.Files.Walk
import ComponentPack.Localization.Table
import ComponentPack.Log
import ComponentPack.Render.Artifact

/-!
What can go wrong in a pass: for one component, which leaves the others alone, or for the whole
pass.
-/

namespace ComponentPack.Build

open Component Files ComponentPack.Localization Render

/-- What ends the work on one component. -/
inductive ComponentError where
  | read (fault : Fault)
  | sections (error : SectionError)
  | localization (error : TableError)
  | compile (reason : Text)
  | artifact (error : ArtifactError)
  | write (path : Path) (fault : Fault)
deriving DecidableEq, Repr

def writeMessage (path : Path) (fault : Fault) : Text :=
  "Failed to write " ++ path.text ++ ": " ++ fault.message

def ComponentError.message : ComponentError → Text
  | read fault => "Failed to read source: " ++ fault.message
  | sections e => e.message
  | localization e => e.message
  | compile reason => "Template compilation failed: " ++ reason
  | artifact e => e.message
  | write path fault => writeMessage path fault

structure ComponentFailure where
  path : Path
  error : ComponentError
deriving DecidableEq, Repr

namespace ComponentFailure

def component (failure : ComponentFailure) : Text := Source.basenameOf failure.path

def message (failure : ComponentFailure) : Text :=
  failure.component ++ ": " ++ failure.error.message

def sort (failures : List ComponentFailure) : List ComponentFailure :=
  failures.mergeSort fun a b => a.path.le b.path

def warnings (failures : List ComponentFailure) : Log :=
  failures.map fun failure => Log.warn failure.message

end ComponentFailure

inductive BuildError where
  | directoryNotFound (directory : Path)
  | unreadable (fault : WalkFault)
  | compiler (error : Compiler.CompilerError)
  | write (path : Path) (fault : Fault)
deriving DecidableEq, Repr

def BuildError.message : BuildError → Text
  | directoryNotFound directory => "Components directory not found: " ++ directory.text
  | unreadable fault => "Failed to read components directory: " ++ fault.message
  | compiler e => e.message
  | write path fault => writeMessage path fault

/-- The successes and the failures among results, each in order. -/
def split {α ε : Type} : List (Except ε α) → List α × List ε
  | [] => ([], [])
  | .ok a :: results => let (done, failed) := split results; (a :: done, failed)
  | .error e :: results => let (done, failed) := split results; (done, e :: failed)

end ComponentPack.Build
