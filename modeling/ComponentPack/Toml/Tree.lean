import ComponentPack.Toml.Value

/-!
Tables under construction. A table may be written in parts, under headings and by keys with dots,
but none of its parts twice.
-/

namespace ComponentPack.Toml

inductive Entry where
  | value (value : Value)
  /-- A table that may grow. It is implicit if it was only named on the way to another one, and
  dotted if that was in a key with dots. -/
  | table (implicit dotted : Bool) (entries : List (Text × Entry))
  | tables (items : List (List (Text × Entry)))

/-- The entries of a table in the order of their first appearance. -/
abbrev Entries := List (Text × Entry)

mutual

def Entry.toValue : Entry → Value
  | .value v => v
  | .table _ _ entries => .table (Entry.toMembers entries)
  | .tables items => .array (Entry.toTables items)

def Entry.toMembers : List (Text × Entry) → List (Text × Value)
  | [] => []
  | (key, entry) :: entries => (key, entry.toValue) :: Entry.toMembers entries

def Entry.toTables : List (List (Text × Entry)) → List Value
  | [] => []
  | entries :: items => .table (Entry.toMembers entries) :: Entry.toTables items

end

namespace Entries

def find? (key : Text) : Entries → Option Entry
  | [] => none
  | (name, entry) :: entries => if name = key then some entry else find? key entries

def set (key : Text) (entry : Entry) : Entries → Entries
  | [] => [(key, entry)]
  | (name, old) :: entries =>
    if name = key then (key, entry) :: entries else (name, old) :: set key entry entries

def add (key : Text) (value : Value) (entries : Entries) : Option Entries :=
  match find? key entries with
  | some _ => none
  | none => some (set key (.value value) entries)

/-- Changes the table at the end of a path, and makes the tables on the way that are missing. The
change is told whether the table is dotted. A key with dots does not reach into a table that stands
under a heading of its own. -/
def change (dotted : Bool) (edit : Bool → Entries → Option Entries) :
    List Text → Bool → Entries → Option Entries
  | [], isDotted, entries => edit isDotted entries
  | key :: path, _, entries =>
    match find? key entries with
    | none =>
      (change dotted edit path dotted []).map fun inner =>
        set key (.table true dotted inner) entries
    | some (.value _) => none
    | some (.table implicit isDotted inner) =>
      if dotted ∧ !implicit then none
      else
        (change dotted edit path isDotted inner).map fun inner =>
          set key (.table implicit isDotted inner) entries
    | some (.tables items) =>
      match items.getLast? with
      | none => none
      | some last =>
        (change dotted edit path false last).map fun last =>
          set key (.tables (items.dropLast ++ [last])) entries

/-- Adds a value under a key with dots. All tables on the way have to be dotted. -/
def addAt (path : List Text) (value : Value) (entries : Entries) : Option Entries :=
  match path.getLast? with
  | none => none
  | some key =>
    let way := path.dropLast
    change true (fun isDotted entries =>
      if isDotted = way.isEmpty then none else add key value entries) way false entries

def openTable (path : List Text) (entries : Entries) : Option Entries :=
  match path.getLast? with
  | none => none
  | some key =>
    change false (fun _ entries =>
      match find? key entries with
      | none => some (set key (.table false false []) entries)
      | some (.table true false inner) => some (set key (.table false false inner) entries)
      | some _ => none) path.dropLast false entries

def openItem (path : List Text) (entries : Entries) : Option Entries :=
  match path.getLast? with
  | none => none
  | some key =>
    change false (fun _ entries =>
      match find? key entries with
      | none => some (set key (.tables [[]]) entries)
      | some (.tables items) => some (set key (.tables (items ++ [[]])) entries)
      | some _ => none) path.dropLast false entries

def addUnder (heading path : List Text) (value : Value) (entries : Entries) : Option Entries :=
  change false (fun _ entries => addAt path value entries) heading false entries

end Entries

end ComponentPack.Toml
