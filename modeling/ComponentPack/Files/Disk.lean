import ComponentPack.Dictionary
import ComponentPack.Path

/-!
A file system as a value: files, directories and symbolic links by their locations, and a working
directory against which relative paths are resolved. Operations return a changed disk or a fault.
-/

namespace ComponentPack.Files

inductive Fault where
  | notFound
  | alreadyExists
  | notDirectory
  | isDirectory
  | busy
  | nameTooLong
  | tooManyLinks
  | invalidText
  | nulInName
deriving DecidableEq, Repr

namespace Fault

def reason : Fault → Text
  | notFound => "No such file or directory"
  | alreadyExists => "File exists"
  | notDirectory => "Not a directory"
  | isDirectory => "Is a directory"
  | busy => "Device or resource busy"
  | nameTooLong => "File name too long"
  | tooManyLinks => "Too many levels of symbolic links"
  | invalidText => "stream did not contain valid UTF-8"
  | nulInName => "file name contained an unexpected NUL byte"

def code? : Fault → Option Nat
  | notFound => some 2
  | alreadyExists => some 17
  | notDirectory => some 20
  | isDirectory => some 21
  | busy => some 16
  | nameTooLong => some 36
  | tooManyLinks => some 40
  | invalidText | nulInName => none

def message (fault : Fault) : Text :=
  match fault.code? with
  | some code => fault.reason ++ " (os error " ++ Text.ofNat code ++ ")"
  | none => fault.reason

end Fault

inductive Node where
  | file (content : ByteArray)
  | directory
  | link (target : Path)
deriving DecidableEq

abbrev Location := List Text

/-- A file system. The root is always a directory. -/
structure Disk where
  nodes : Dictionary Location Node
  home : Location

inductive Found where
  | present (location : Location) (node : Node)
  /-- Nothing is there, but the directory in which it would be. -/
  | absent (location : Location)

namespace Disk

def node? (disk : Disk) (location : Location) : Option Node :=
  match location with
  | [] => some .directory
  | _ => disk.nodes.get? location

def setNode (disk : Disk) (location : Location) (node : Node) : Disk :=
  { disk with nodes := disk.nodes.insert location node }

def eraseNode (disk : Disk) (location : Location) : Disk :=
  { disk with nodes := disk.nodes.erase location }

def maxName : Nat := 255

/-- Paths have fewer bytes than this. -/
def maxPath : Nat := 4096

def maxLinks : Nat := 40

def namesOf (path : Path) : List Text :=
  (Text.splitAll '/' path.text).filter fun name => !name.isEmpty

def endsInSlash (path : Path) : Bool := path.text.getLast? = some '/'

inductive Purpose where
  /-- What stands there, even if it is a link. -/
  | entry
  /-- What a link there leads to. -/
  | target
  /-- A file that is created if it is missing. Its name cannot have a slash after it. -/
  | creation
deriving DecidableEq, Repr

/-- Follows names from a directory. Links on the way are followed, and the last one too unless an
entry is looked up and the path does not end in a slash; `links` more of them may be met. -/
def walk (disk : Disk) (purpose : Purpose) (links : Nat) (asDirectory : Bool) (here : Location)
    (names : List Text) : Except Fault Found :=
  match names with
  | [] =>
    match disk.node? here with
    | some .directory => .ok (.present here .directory)
    | some node => if asDirectory then .error .notDirectory else .ok (.present here node)
    | none => .error .notFound
  | name :: rest =>
    match disk.node? here with
    | some .directory =>
      if name = ['.'] then walk disk purpose links asDirectory here rest
      else if name = ['.', '.'] then walk disk purpose links asDirectory here.dropLast rest
      else if rest.isEmpty ∧ asDirectory ∧ purpose = .creation then .error .isDirectory
      else if maxName < name.byteSize then .error .nameTooLong
      else
        let there := here ++ [name]
        match disk.node? there with
        | none => if rest.isEmpty then .ok (.absent there) else .error .notFound
        | some (.link target) =>
          if rest.isEmpty ∧ purpose = .entry ∧ !asDirectory then .ok (.present there (.link target))
          else
            match links with
            | 0 => .error .tooManyLinks
            | links + 1 =>
              walk disk purpose links (asDirectory || rest.isEmpty && endsInSlash target)
                (if target.isAbsolute then [] else here) (namesOf target ++ rest)
        | some _ => walk disk purpose links asDirectory there rest
    | _ => .error .notDirectory
termination_by (links, names.length)

def resolve (disk : Disk) (purpose : Purpose) (path : Path) : Except Fault Found :=
  if path.text.any fun c => c.toNat = 0 then .error .nulInName
  else if path.text.isEmpty then .error .notFound
  else if maxPath ≤ path.text.byteSize then .error .nameTooLong
  else
    walk disk purpose maxLinks (endsInSlash path) (if path.isAbsolute then [] else disk.home)
      (namesOf path)

def doesExist (disk : Disk) (path : Path) : Bool :=
  match disk.resolve .target path with
  | .ok (.present _ _) => true
  | _ => false

def isDirectory (disk : Disk) (path : Path) : Bool :=
  match disk.resolve .target path with
  | .ok (.present _ .directory) => true
  | _ => false

def read (disk : Disk) (path : Path) : Except Fault ByteArray :=
  match disk.resolve .target path with
  | .error e => .error e
  | .ok (.absent _) => .error .notFound
  | .ok (.present _ (.file content)) => .ok content
  | .ok (.present _ .directory) => .error .isDirectory
  | .ok (.present _ (.link _)) => .error .tooManyLinks

def readText (disk : Disk) (path : Path) : Except Fault Text :=
  match disk.read path with
  | .error e => .error e
  | .ok content =>
    match Text.ofBytes? content with
    | some text => .ok text
    | none => .error .invalidText

theorem readText_of_read {disk : Disk} {path : Path} {text : Text}
    (read : disk.read path = .ok (Text.toBytes text)) : disk.readText path = .ok text := by
  rw [readText, read]
  simp only [Text.ofBytes?_toBytes]

/-- Creates a file or replaces its content; through a link the file that it leads to. -/
def write (disk : Disk) (path : Path) (content : ByteArray) : Except Fault Disk :=
  match disk.resolve .creation path with
  | .error e => .error e
  | .ok (.absent location) => .ok (disk.setNode location (.file content))
  | .ok (.present location (.file _)) => .ok (disk.setNode location (.file content))
  | .ok (.present _ .directory) => .error .isDirectory
  | .ok (.present _ (.link _)) => .error .tooManyLinks

def removeFile (disk : Disk) (path : Path) : Except Fault Disk :=
  match disk.resolve .entry path with
  | .error e => .error e
  | .ok (.absent _) => .error .notFound
  | .ok (.present _ .directory) => .error .isDirectory
  | .ok (.present location _) => .ok (disk.eraseNode location)

def withoutFinalSlashes (path : Path) : Path :=
  let bare := (path.text.reverse.dropWhile (· = '/')).reverse
  if bare.isEmpty then path else ⟨bare⟩

def endsInName (path : Path) : Bool :=
  match (namesOf path).getLast? with
  | none => false
  | some name => name != ['.'] && name != ['.', '.']

/-- Moves a file; what stands at the new place is replaced, unless it is a directory. A link at the
new place is not followed, also before a slash, and a file cannot be moved to a path that ends in a
slash. -/
def rename (disk : Disk) (source target : Path) : Except Fault Disk :=
  match disk.resolve .entry source with
  | .error e => .error e
  | .ok (.absent _) => .error .notFound
  | .ok (.present origin node) =>
    match disk.resolve .entry (withoutFinalSlashes target) with
    | .error e => .error e
    | .ok (.absent location) =>
      if endsInSlash target then .error .notDirectory
      else .ok ((disk.eraseNode origin).setNode location node)
    | .ok (.present location there) =>
      if !endsInName target then .error .busy
      else if endsInSlash target then .error .notDirectory
      else if there = .directory then .error .isDirectory
      else .ok ((disk.eraseNode origin).setNode location node)

/-- Creates one directory. A link at its place is not followed, also before a slash. -/
def createDirectory (disk : Disk) (path : Path) : Except Fault Disk :=
  match disk.resolve .entry (withoutFinalSlashes path) with
  | .error e => .error e
  | .ok (.present _ _) => .error .alreadyExists
  | .ok (.absent location) => .ok (disk.setNode location .directory)

/-- A path as written and the paths above it, up to the empty path or the root. -/
def ancestors (path : Path) : List Path :=
  match (path.spans.filter fun span => span.1 ≠ .root).reverse with
  | [] => []
  | _ :: outer => path :: outer.map fun span => ⟨path.text.take span.2⟩

/-- Creates the first of some directories, each of which lies in the next one, and what is missing
of the others. What has been created stays when a later step fails. -/
def createNested (disk : Disk) : List Path → Except Fault Unit × Disk
  | [] => (.ok (), disk)
  | path :: outer =>
    match disk.createDirectory path with
    | .ok disk => (.ok (), disk)
    | .error .notFound =>
      match disk.createNested outer with
      | (.error e, disk) => (.error e, disk)
      | (.ok (), disk) =>
        match disk.createDirectory path with
        | .ok disk => (.ok (), disk)
        | .error e => (if disk.isDirectory path then .ok () else .error e, disk)
    | .error e => (if disk.isDirectory path then .ok () else .error e, disk)

def createDirectories (disk : Disk) (path : Path) : Except Fault Unit × Disk :=
  disk.createNested (ancestors path)

def namesIn (disk : Disk) (location : Location) : List Text :=
  disk.nodes.keys.filterMap fun key => if key.dropLast = location then key.getLast? else none

def empty (home : Location) : Disk :=
  let above := (List.range home.length).map fun n => home.take (n + 1)
  ⟨.ofList (above.map fun location => (location, .directory)), home⟩

/-- Puts a node at a path, and makes the directories above it that are missing. A file is written
through a link; what stands there otherwise is replaced, but a directory stays one. -/
def install (disk : Disk) (path : Path) (node : Node) : Disk :=
  let names := namesOf path
  let (_, disk) := disk.createDirectories ⟨List.intercalate ['/'] names.dropLast⟩
  match node with
  | .file content => (disk.write path content).toOption.getD disk
  | node =>
    match disk.walk .target maxLinks true disk.home names.dropLast, names.getLast? with
    | .ok (.present above _), some name =>
      let location := above ++ [name]
      if disk.node? location = some .directory ∧ node = .directory then disk
      else disk.setNode location node
    | _, _ => disk

def remove (disk : Disk) (path : Path) : Disk :=
  match disk.resolve .entry path with
  | .ok (.present location _) =>
    { disk with nodes := disk.nodes.filter fun key _ => !location.isPrefixOf key }
  | _ => disk

def filesBelowHome (disk : Disk) : List (Text × ByteArray) :=
  disk.nodes.entries.filterMap fun (location, node) =>
    match disk.home.isPrefixOf? location, node with
    | some names, .file content => some (List.intercalate ['/'] names, content)
    | _, _ => none

/-- The regular files below the working directory that are new or have other content than before,
and those that are gone. -/
def changesSince (disk before : Disk) : List (Text × Option ByteArray) :=
  let old := before.filesBelowHome
  let new := disk.filesBelowHome
  let changed := new.filter fun (name, content) =>
    !old.any fun (known, was) => known = name && was == content
  let removed := old.filter fun (name, _) => !new.any fun (known, _) => known = name
  (changed.map fun (name, content) => (name, some content)) ++
    removed.map fun (name, _) => (name, none)

end Disk

end ComponentPack.Files
