import ComponentPack.Json.Printer
import ComponentPack.Json.Reader

/-!
Localization tables: for every locale code, messages by their keys. Tables are merged message by
message, the later table winning, and written with codes and keys in ascending order.
-/

namespace ComponentPack.Localization

abbrev Messages := Dictionary Text Json

structure Table where
  locales : Dictionary Text Messages

inductive TableError where
  | invalidJson (reason : Json.ReadError)
  | invalidLocale (code : Text)
deriving DecidableEq, Repr

def TableError.message : TableError → Text
  | invalidJson reason => "Invalid localization JSON: " ++ reason.message
  | invalidLocale code => "Invalid locale code `" ++ code ++ "`"

namespace Table

def empty : Table := ⟨.empty⟩

def isEmpty (table : Table) : Bool := table.locales.isEmpty

def codes (table : Table) : List Text := table.locales.keys

def messages? (table : Table) (code : Text) : Option Messages := table.locales.get? code

def get? (table : Table) (code key : Text) : Option Json :=
  (table.messages? code).bind fun messages => messages.get? key

/-- Sets messages of a locale one after the other; the locale is entered even without messages. -/
def insertMessages (table : Table) (code : Text) (messages : List (Text × Json)) : Table :=
  ⟨table.locales.insert code (((table.messages? code).getD .empty).insertAll messages)⟩

def insert (table : Table) (code key : Text) (value : Json) : Table :=
  table.insertMessages code [(key, value)]

/-- Enters every message of a second table, which wins where both have one. -/
def merge (table other : Table) : Table :=
  other.locales.entries.foldl (fun table (code, messages) =>
    table.insertMessages code messages.entries) table

def project (table : Table) (code : Text) : Table :=
  match table.messages? code with
  | some messages => ⟨Dictionary.empty.insert code messages⟩
  | none => empty

/-- A code names a language file, so that it must be a plain part of a file name. -/
def isValidCode (code : Text) : Bool :=
  !code.isEmpty && code != ['.'] && code != ['.', '.'] &&
    !code.any fun c => c == '/' || c == '\\'

def shape : Json.Shape := .map (.map .any)

def messagesOfJson : Json → Messages
  | .object members => .ofList members
  | _ => .empty

def ofJson : Json → Table
  | .object members => ⟨.ofList (members.map fun (code, value) => (code, messagesOfJson value))⟩
  | _ => empty

def toJson (table : Table) : Json :=
  .object (table.locales.entries.map fun (code, messages) => (code, .object messages.entries))

/-- Reads the text of a table. Of several invalid codes the first in order is reported. -/
def parse (text : Text) : Except TableError Table :=
  match Json.read shape text with
  | .error e => .error (.invalidJson e)
  | .ok value =>
    let table := ofJson value
    match table.codes.find? fun code => !isValidCode code with
    | some code => .error (.invalidLocale code)
    | none => .ok table

def pretty (table : Table) : Text := table.toJson.pretty

end Table

end ComponentPack.Localization
