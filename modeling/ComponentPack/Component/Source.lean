import ComponentPack.Digest.Sha256
import ComponentPack.Path

/-!
Component source files: how a component is named after its path.
-/

namespace ComponentPack.Component

structure Source where
  path : Path
  content : Text
deriving DecidableEq, Repr

namespace Source

def fileExtension : Text := "vue"

def nameOf (path : Path) : Text := path.fileStem?.getD "component"

def basenameOf (path : Path) : Text := path.fileName?.getD path.text

/-- An identifier that depends on the spelling of the path only. -/
def stableId (path : Path) : Text :=
  (Digest.Sha256.hex (Digest.Sha256.digest (Text.toBytes path.text).toList)).take 8

def outputPath (path : Path) (extension : Text) : Path := path.addExtension extension

end Source

end ComponentPack.Component
