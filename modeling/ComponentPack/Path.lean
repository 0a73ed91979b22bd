import ComponentPack.Text.Basic

/-!
File paths as they are written, and the parts that they name. Repeated and trailing slashes and
inner `.` parts are spelling only: two paths are equivalent if they have the same parts, and they
are sorted by parts.
-/

namespace ComponentPack

structure Path where
  text : Text
deriving DecidableEq, Repr

namespace Path

inductive Part where
  /-- The root directory, at the beginning of an absolute path. -/
  | root
  /-- A `.` at the beginning of a relative path. -/
  | here
  /-- The parent directory, `..`. -/
  | up
  | name (name : Text)
deriving DecidableEq, Repr

namespace Part

def rank : Part → Nat
  | root => 0
  | here => 1
  | up => 2
  | name _ => 3

/-- Names are in the order of their bytes, after the other parts. -/
protected def lt : Part → Part → Bool
  | name a, name b => a < b
  | a, b => a.rank < b.rank

instance : LT Part := ⟨fun a b => a.lt b⟩

instance : DecidableLT Part := fun a b => inferInstanceAs (Decidable (a.lt b = true))

end Part

def ofString (s : String) : Path := ⟨s.toList⟩

def isAbsolute (path : Path) : Bool := path.text.head? = some '/'

/-- What a piece between slashes names; a `.` counts only at the very beginning. -/
def partOf (position : Nat) (piece : Text) : Option Part :=
  if piece.isEmpty then none
  else if piece = ['.'] then if position = 0 then some .here else none
  else if piece = ['.', '.'] then some .up
  else some (.name piece)

/-- The parts among the pieces that begin at a position, each with the position of its end. -/
def spansFrom (position : Nat) : List Text → List (Part × Nat)
  | [] => []
  | piece :: pieces =>
    let stop := position + piece.length
    match partOf position piece with
    | some part => (part, stop) :: spansFrom (stop + 1) pieces
    | none => spansFrom (stop + 1) pieces

/-- The parts of a path, each with the number of characters through its end. -/
def spans (path : Path) : List (Part × Nat) :=
  let found := spansFrom 0 (Text.splitAll '/' path.text)
  if path.isAbsolute then (.root, 1) :: found else found

def parts (path : Path) : List Part := path.spans.map Prod.fst

def equivalent (a b : Path) : Bool := a.parts = b.parts

def le (a b : Path) : Bool := !decide (b.parts < a.parts)

/-- Sorts by parts; equivalent paths keep their order. -/
def sort (paths : List Path) : List Path := paths.mergeSort le

def fileName? (path : Path) : Option Text :=
  match path.parts.getLast? with
  | some (.name name) => some name
  | _ => none

/-- A file name without its extension, and the extension. A dot at the very beginning starts no
extension. -/
def splitExtension (name : Text) : Text × Option Text :=
  match Text.cutLast? '.' name with
  | some ([], _) | none => (name, none)
  | some (stem, extension) => (stem, some extension)

def fileStem? (path : Path) : Option Text := path.fileName?.map fun name => (splitExtension name).1

def extension? (path : Path) : Option Text :=
  path.fileName?.bind fun name => (splitExtension name).2

/-- The path without its last part; the root and the empty path have none. -/
def parent? (path : Path) : Option Path :=
  match path.spans.reverse with
  | [] | (.root, _) :: _ => none
  | [_] => some ⟨[]⟩
  | _ :: (_, stop) :: _ => some ⟨path.text.take stop⟩

/-- A path below another one; an absolute path stands for itself. -/
def join (base path : Path) : Path :=
  if path.isAbsolute ∨ base.text.isEmpty then path
  else if base.text.getLast? = some '/' then ⟨base.text ++ path.text⟩
  else ⟨base.text ++ '/' :: path.text⟩

def withFileName (path : Path) (name : Text) : Path :=
  match path.fileName?, path.parent? with
  | some _, some parent => parent.join ⟨name⟩
  | _, _ => path.join ⟨name⟩

def addExtension (path : Path) (extension : Text) : Path := ⟨path.text ++ '.' :: extension⟩

end Path

end ComponentPack
