import ComponentPack.Files.Disk

/-!
The files below a directory. Symbolic links are followed; a link to a directory that is still open
would never end and is a fault.
-/

namespace ComponentPack.Files

inductive WalkFault where
  | unreadable (path : Path) (fault : Fault)
  /-- A link leads back to a directory above it. -/
  | loop (link ancestor : Path)
deriving DecidableEq, Repr

def WalkFault.message : WalkFault → Text
  | unreadable path fault =>
    "IO error for operation on " ++ path.text ++ ": " ++ fault.message
  | loop link ancestor =>
    "File system loop found: " ++ link.text ++ " points to an ancestor " ++
      ancestor.text

inductive Visit where
  | file (path : Path)
  | fault (fault : WalkFault)
deriving DecidableEq, Repr

namespace Visit

def files : List Visit → List Path
  | [] | fault _ :: _ => []
  | file path :: visits => path :: files visits

def fault? : List Visit → Option WalkFault
  | [] => none
  | file _ :: visits => fault? visits
  | fault e :: _ => some e

end Visit

namespace Disk

/-- What a walk meets below a directory. The directories above are given with the paths on which
they were entered, the nearest one first; `list` gives the names in a directory. A directory is
opened by its path, which may be too long for that. -/
def visits (disk : Disk) (list : Location → List Text) :
    Nat → List (Path × Location) → Path → Location → List Visit
  | 0, _, _, _ => []
  | depth + 1, above, path, location =>
    let entered := (path, location) :: above
    (list location).flatMap fun name =>
      let child := path.join ⟨name⟩
      let there := location ++ [name]
      match disk.node? there with
      | none => []
      | some (.file _) => [.file child]
      | some .directory =>
        match disk.resolve .target child with
        | .error e => [.fault (.unreadable child e)]
        | .ok _ => visits disk list depth entered child there
      | some (.link _) =>
        match disk.resolve .target child with
        | .error e => [.fault (.unreadable child e)]
        | .ok (.absent _) => [.fault (.unreadable child .notFound)]
        | .ok (.present target .directory) =>
          match entered.find? fun (_, location) => location = target with
          | some (ancestor, _) => [.fault (.loop child ancestor)]
          | none => visits disk list depth entered child target
        | .ok (.present _ _) => [.file child]

/-- No walk is deeper: between two links it descends through the tree, and each link leads to a
directory that is not open. -/
def maxDepth (disk : Disk) : Nat := (disk.nodes.size + 1) * (disk.nodes.size + 1) + 1

def walkBelow? (disk : Disk) (list : Location → List Text) (path : Path) : Option (List Visit) :=
  match disk.resolve .target path with
  | .ok (.present location .directory) => some (disk.visits list disk.maxDepth [] path location)
  | _ => none

end Disk

end ComponentPack.Files
