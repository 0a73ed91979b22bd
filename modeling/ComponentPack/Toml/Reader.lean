import ComponentPack.Toml.Lexical
import ComponentPack.Toml.Number
import ComponentPack.Toml.Tree

/-!
Reading TOML documents.
-/

namespace ComponentPack.Toml

abbrev Scanner := Text → Option (Value × Text)

def arrayItems (item : Scanner) : Nat → Text → Option (List Value × Text)
  | 0, _ => none
  | count + 1, text =>
    match skipLines text with
    | ']' :: rest => some ([], rest)
    | text =>
      match item text with
      | none => none
      | some (value, rest) =>
        match skipLines rest with
        | ',' :: rest =>
          (arrayItems item count rest).map fun (values, rest) => (value :: values, rest)
        | ']' :: rest => some ([value], rest)
        | _ => none

def keyValue? (item : Scanner) (text : Text) : Option (List Text × Value × Text) :=
  match key? text with
  | some (path, '=' :: rest) =>
    match item (skipSpaces rest) with
    | some (value, rest) => some (path, value, rest)
    | none => none
  | _ => none

def inlineMembers (item : Scanner) : Nat → Entries → Text → Option (Entries × Text)
  | 0, _, _ => none
  | count + 1, entries, text =>
    match keyValue? item text with
    | none => none
    | some (path, value, rest) =>
      match Entries.addAt path value entries with
      | none => none
      | some entries =>
        match skipSpaces rest with
        | ',' :: rest => inlineMembers item count entries rest
        | '\x7d' :: rest => some (entries, rest)
        | _ => none

def inlineTable (item : Scanner) (text : Text) : Option (Value × Text) :=
  match skipSpaces text with
  | '\x7d' :: rest => some (.table [], rest)
  | text =>
    (inlineMembers item text.length [] text).map fun (entries, rest) =>
      (.table (Entry.toMembers entries), rest)

def scalar? : Scanner
  | 't' :: 'r' :: 'u' :: 'e' :: rest => some (.boolean true, rest)
  | 'f' :: 'a' :: 'l' :: 's' :: 'e' :: rest => some (.boolean false, rest)
  | text =>
    match text.head? with
    | some '"' | some '\'' => (string? text).map fun (string, rest) => (.string string, rest)
    | _ => number? text

/-- Reads a value, of which the containers are nested less deeply than `depth`. -/
def value? : Nat → Scanner
  | 0, _ => none
  | 1, text =>
    match text with
    | '[' :: _ | '\x7b' :: _ => none
    | text => scalar? text
  | depth + 2, text =>
    match text with
    | '[' :: rest =>
      (arrayItems (value? (depth + 1)) text.length rest).map fun (items, rest) =>
        (.array items, rest)
    | '\x7b' :: rest => inlineTable (value? (depth + 1)) rest
    | text => scalar? text

/-- Reads a heading after its opening bracket: whether it opens a table of an array, its key, and
what follows its line. -/
def heading? (text : Text) : Option (Bool × List Text × Text) :=
  match text with
  | '[' :: rest =>
    match key? rest with
    | some (path, ']' :: ']' :: rest) => (lineEnd? rest).map fun rest => (true, path, rest)
    | _ => none
  | text =>
    match key? text with
    | some (path, ']' :: rest) => (lineEnd? rest).map fun rest => (false, path, rest)
    | _ => none

def lines : Nat → List Text → Entries → Text → Option Entries
  | 0, _, entries, text => if text.isEmpty then some entries else none
  | count + 1, heading, entries, text =>
    match skipSpaces text with
    | [] => some entries
    | '[' :: rest =>
      match heading? rest with
      | none => none
      | some (isItem, path, rest) =>
        match if isItem then Entries.openItem path entries else Entries.openTable path entries with
        | none => none
        | some entries => lines count path entries rest
    | text =>
      match lineEnd? text with
      | some rest => lines count heading entries rest
      | none =>
        match keyValue? (value? depthLimit) text with
        | none => none
        | some (path, value, rest) =>
          match lineEnd? rest, Entries.addUnder heading path value entries with
          | some rest, some entries => lines count heading entries rest
          | _, _ => none

/-- A byte order mark at the beginning does not count. -/
def skipMark : Text → Text
  | c :: rest => if c.toNat = 0xFEFF then rest else c :: rest
  | [] => []

def parse? (text : Text) : Option (List (Text × Value)) :=
  let text := skipMark text
  (lines (text.length + 1) [] [] text).map Entry.toMembers

end ComponentPack.Toml
