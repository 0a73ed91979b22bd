import ComponentPack.Text.Basic

/-!
Bytes read as UTF-8, where some of them may be part of no character. A row of bytes that begins a
character and does not complete it is one broken piece, and so is every other byte that fits
nowhere.
-/

namespace ComponentPack.Text

inductive Piece where
  | char (c : Char)
  /-- So many bytes that are part of no character. -/
  | broken (count : Nat)
deriving DecidableEq, Repr

/-- A character of which bytes are missing. -/
structure Pending where
  value : Nat
  read : Nat
  missing : Nat
  /-- The least and the greatest byte that may follow. -/
  least : Nat := 0x80
  greatest : Nat := 0xBF
deriving DecidableEq, Repr

/-- What a byte at the beginning of a character gives: a whole piece, or the beginning of one. -/
def lead (byte : Nat) : Piece ⊕ Pending :=
  if byte < 0x80 then .inl (.char (Char.ofNat byte))
  else if byte < 0xC2 then .inl (.broken 1)
  else if byte < 0xE0 then .inr ⟨byte - 0xC0, 1, 1, 0x80, 0xBF⟩
  else if byte < 0xF0 then
    .inr ⟨byte - 0xE0, 1, 2, if byte = 0xE0 then 0xA0 else 0x80,
      if byte = 0xED then 0x9F else 0xBF⟩
  else if byte < 0xF5 then
    .inr ⟨byte - 0xF0, 1, 3, if byte = 0xF0 then 0x90 else 0x80,
      if byte = 0xF4 then 0x8F else 0xBF⟩
  else .inl (.broken 1)

def Pending.continue? (pending : Pending) (byte : Nat) : Option (Piece ⊕ Pending) :=
  if pending.least ≤ byte ∧ byte ≤ pending.greatest then
    let value := pending.value * 64 + (byte - 0x80)
    if pending.missing ≤ 1 then some (.inl (.char (Char.ofNat value)))
    else some (.inr { value := value, read := pending.read + 1, missing := pending.missing - 1 })
  else none

/-- The piece that is left of a character that is not completed. -/
def leftOver : Option Pending → List Piece
  | none => []
  | some pending => [.broken pending.read]

def piecesAfter (pending : Option Pending) : List UInt8 → List Piece
  | [] => leftOver pending
  | byte :: bytes =>
    match pending.bind fun pending => pending.continue? byte.toNat with
    | some (.inl piece) => piece :: piecesAfter none bytes
    | some (.inr pending) => piecesAfter (some pending) bytes
    | none =>
      match lead byte.toNat with
      | .inl piece => leftOver pending ++ piece :: piecesAfter none bytes
      | .inr next => leftOver pending ++ piecesAfter (some next) bytes

def pieces (bytes : ByteArray) : List Piece := piecesAfter none bytes.toList

def replacement : Char := Char.ofNat 0xFFFD

/-- The text of a row of bytes, with one replacement character for each broken piece. -/
def ofBytes (bytes : ByteArray) : Text :=
  (pieces bytes).map fun
    | .char c => c
    | .broken _ => replacement

/-! Text in which each character stands for one byte. Programs see text like this, so what they cut
and join need be no UTF-8. -/

/-- The text with one character for each byte. -/
def ofRow (bytes : ByteArray) : Text := bytes.data.toList.map fun byte => Char.ofNat byte.toNat

/-- The bytes that the characters of a text stand for. -/
def toRow (text : Text) : ByteArray := ⟨(text.map fun c => c.toNat.toUInt8).toArray⟩

/-- One character for each byte of the UTF-8 form. -/
def spread (text : Text) : Text := ofRow (toBytes text)

/-- The text whose UTF-8 form the characters stand for. -/
def gather (text : Text) : Text := ofBytes (toRow text)

end ComponentPack.Text
