import ComponentPack.Build.Failure

/-!
Finding the components below a directory.
-/

namespace ComponentPack.Build

open Component Files

def isComponent (path : Path) : Bool := path.extension? = some Source.fileExtension

/-- The components below a directory in the order of their paths, where `list` gives the names in
a directory. -/
def discoverBy (disk : Disk) (list : Location → List Text) (directory : Path) :
    Except BuildError (List Path) × Log :=
  match disk.walkBelow? list directory with
  | none => (.error (.directoryNotFound directory), [])
  | some visits =>
    let found := (Visit.files visits).filter isComponent
    let log := found.map fun path => Log.debug ("Found component " ++ path.text)
    match Visit.fault? visits with
    | some fault => (.error (.unreadable fault), log)
    | none => (.ok (Path.sort found), log)

def discover (disk : Disk) (directory : Path) : Except BuildError (List Path) × Log :=
  discoverBy disk disk.namesIn directory

end ComponentPack.Build
