import ComponentPack.Files.Disk
import ComponentPack.Log

/-!
Writing an output only if it changes. New content goes to a temporary sibling first, which is then
moved into place, so that a write that fails leaves no half of an output.
-/

namespace ComponentPack.Files

inductive WriteOutcome where
  | written
  | unchanged
deriving DecidableEq, Repr

def WriteOutcome.entry (path : Path) : WriteOutcome → Log.Entry
  | written => Log.info ("Wrote " ++ path.text)
  | unchanged => Log.debug ("Unchanged " ++ path.text)

namespace Disk

def temporary (path : Path) : Path :=
  path.withFileName ('.' :: path.fileName?.getD [] ++ ".tmp")

/-- Whether an output has to be written: it is missing, or has other content. -/
def needsWrite (disk : Disk) (path : Path) (content : ByteArray) : Except Fault Bool :=
  match disk.read path with
  | .ok existing => .ok (existing != content)
  | .error .notFound => .ok true
  | .error e => .error e

def createParent (disk : Disk) (path : Path) : Except Fault Unit × Disk :=
  match path.parent? with
  | none => (.ok (), disk)
  | some parent => if parent.text.isEmpty then (.ok (), disk) else disk.createDirectories parent

/-- Moves the temporary sibling into place; it is removed if that fails. -/
def commit (disk : Disk) (path : Path) : Except Fault Unit × Disk :=
  match disk.rename (temporary path) path with
  | .ok disk => (.ok (), disk)
  | .error e => (.error e, (disk.removeFile (temporary path)).toOption.getD disk)

def replace (disk : Disk) (path : Path) (content : ByteArray) : Except Fault Unit × Disk :=
  match disk.createParent path with
  | (.error e, disk) => (.error e, disk)
  | (.ok (), disk) =>
    match disk.write (temporary path) content with
    | .error e => (.error e, disk)
    | .ok disk => disk.commit path

/-- Writes an output unless the file holds exactly this content. -/
def writeIfChanged (disk : Disk) (path : Path) (content : ByteArray) :
    Except Fault WriteOutcome × Disk :=
  match disk.needsWrite path content with
  | .error e => (.error e, disk)
  | .ok false => (.ok .unchanged, disk)
  | .ok true =>
    match disk.replace path content with
    | (.ok (), disk) => (.ok .written, disk)
    | (.error e, disk) => (.error e, disk)

end Disk

end ComponentPack.Files
