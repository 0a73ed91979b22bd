import ComponentPack.Json.Scanner
import ComponentPack.Json.Shape
import ComponentPack.Text.Utf8

/-!
Reading a JSON document of a given shape.

The reader is a machine with a stack of open containers. Each step looks at the next character that
is no blank and takes it or the scalar that it begins, so that a run ends with its text.
-/

namespace ComponentPack.Json

/-- The fields of a record: name, whether required, shape. -/
abbrev Fields := List (Text × Bool × Shape)

inductive ListFrame where
  /-- The items so far, the last one first. -/
  | items (shape : Shape) (done : List Json)
  /-- A record written as an array, with the fields so far. -/
  | positional (name : Text) (fields : Fields) (done : List (Text × Json))
  | skipped

inductive ObjectFrame where
  /-- The members so far, the last one first. -/
  | members (shape : Shape) (done : List (Text × Json))
  | record (name : Text) (fields : Fields) (done : List (Text × Json))
  | skipped

namespace ListFrame

def unread (fields : Fields) (done : List (Text × Json)) : Fields := fields.drop done.length

def shape : ListFrame → Shape
  | items shape _ => shape
  | positional _ fields done =>
    match unread fields done with
    | (_, _, shape) :: _ => shape
    | [] => .skipped
  | skipped => .skipped

def push (value : Json) : ListFrame → ListFrame
  | items shape done => items shape (value :: done)
  | positional name fields done =>
    match unread fields done with
    | (field, _, _) :: _ => positional name fields ((field, value) :: done)
    | [] => positional name fields done
  | skipped => skipped

def isFull : ListFrame → Bool
  | positional _ fields done => (unread fields done).isEmpty
  | _ => false

def isSkipped : ListFrame → Bool
  | skipped => true
  | _ => false

def wantedLength (name : Text) (fields : Fields) : Text :=
  "struct " ++ name ++ " with " ++ Text.ofNat fields.length ++
    if fields.length = 1 then " element".toList else " elements".toList

/-- The value of an array that ends before a place. A required field must not be missing. -/
def close (offset : Nat) : ListFrame → Except Fault Json
  | items _ done => .ok (.array done.reverse)
  | positional name fields done =>
    match (unread fields done).findIdx? fun field => field.2.1 with
    | some i => .error ⟨.invalidLength (done.length + i) (wantedLength name fields), offset⟩
    | none => .ok (.ofMembers done)
  | skipped => .ok .null

end ListFrame

namespace ObjectFrame

def shapeOf (key : Text) : ObjectFrame → Shape
  | members shape _ => shape
  | record _ fields _ =>
    match fields.find? fun field => field.1 = key with
    | some (_, _, shape) => shape
    | none => .skipped
  | skipped => .skipped

/-- Enters a member; a record keeps its fields only. -/
def push (key : Text) (value : Json) : ObjectFrame → ObjectFrame
  | members shape done => members shape ((key, value) :: done)
  | record name fields done =>
    if fields.any fun field => field.1 = key then record name fields ((key, value) :: done)
    else record name fields done
  | skipped => skipped

def repeats (key : Text) : ObjectFrame → Bool
  | record _ _ done => done.any fun member => member.1 = key
  | _ => false

def isSkipped : ObjectFrame → Bool
  | skipped => true
  | _ => false

def care (frame : ObjectFrame) : Scanner.Care := if frame.isSkipped then .lenient else .strict

/-- The value of an object that ends before a place. A required field must not be missing. -/
def close (offset : Nat) : ObjectFrame → Except Fault Json
  | members _ done => .ok (.ofMembers done.reverse)
  | record _ fields done =>
    match fields.find? fun field => field.2.1 && !(done.any fun member => member.1 = field.1) with
    | some (field, _, _) => .error ⟨.missingField field, offset⟩
    | none => .ok (.ofMembers done)
  | skipped => .ok .null

end ObjectFrame

/-- A container that waits for the value of an item or of a key. -/
inductive Frame where
  | item (frame : ListFrame)
  | member (frame : ObjectFrame) (key : Text)

inductive Machine where
  | expectValue (shape : Shape) (frames : List Frame)
  /-- After `[`: an item or the end. -/
  | firstItem (top : ListFrame) (frames : List Frame)
  /-- After an item: a comma or the end. -/
  | itemEnd (top : ListFrame) (frames : List Frame)
  /-- After a comma: an item. -/
  | nextItem (top : ListFrame) (frames : List Frame)
  /-- After a comma that follows the last field of a record. -/
  | extraItem
  /-- After an opening brace: a key or the end. -/
  | firstKey (top : ObjectFrame) (frames : List Frame)
  /-- After a comma: a key. -/
  | nextKey (top : ObjectFrame) (frames : List Frame)
  | colon (top : ObjectFrame) (key : Text) (frames : List Frame)
  /-- After a member: a comma or the end. -/
  | memberEnd (top : ObjectFrame) (frames : List Frame)
  | finished (value : Json)

namespace Machine

/-- Containers nest less deep than this. -/
def maxDepth : Nat := 128

def deliver (value : Json) : List Frame → Machine
  | [] => finished value
  | .item top :: frames => itemEnd (top.push value) frames
  | .member top key :: frames => memberEnd (top.push key value) frames

def openList? : Shape → Option ListFrame
  | .any => some (.items .any [])
  | .list item => some (.items item [])
  | .record name fields => some (.positional name fields [])
  | .skipped => some .skipped
  | _ => none

def openObject? : Shape → Option ObjectFrame
  | .any => some (.members .any [])
  | .map item => some (.members item [])
  | .record name fields => some (.record name fields [])
  | .skipped => some .skipped
  | _ => none

def care : Shape → Scanner.Care
  | .skipped => .lenient
  | _ => .strict

def beginValue (broken : List Nat) (shape : Shape) (frames : List Frame) (c : Char) (offset : Nat)
    (rest : Text) :
    Except Fault (Machine × Scanner.Cursor) :=
  if c = '[' then
    match openList? shape with
    | none => .error ⟨.invalidType (describe (.array [])) shape.wanted, offset⟩
    | some top =>
      if !top.isSkipped ∧ maxDepth ≤ frames.length + 1 then .error ⟨.tooDeep, offset + 1⟩
      else .ok (firstItem top frames, ⟨offset + 1, rest⟩)
  else if c = '\x7b' then
    match openObject? shape with
    | none => .error ⟨.invalidType (describe (.object [])) shape.wanted, offset⟩
    | some top =>
      if !top.isSkipped ∧ maxDepth ≤ frames.length + 1 then .error ⟨.tooDeep, offset + 1⟩
      else .ok (firstKey top frames, ⟨offset + 1, rest⟩)
  else
    match Scanner.scalar? (care shape) broken c offset rest with
    | none => .error ⟨.expectedValue, offset + 1⟩
    | some (.error e) => .error e
    | some (.ok (value, after)) =>
      if shape.admits value then .ok (deliver value frames, after)
      else .error ⟨.invalidType (describe value) shape.wanted, after.offset⟩

def endList (top : ListFrame) (frames : List Frame) (offset : Nat) (rest : Text) :
    Except Fault (Machine × Scanner.Cursor) :=
  match top.close (offset + 1) with
  | .error e => .error e
  | .ok value => .ok (deliver value frames, ⟨offset + 1, rest⟩)

def endObject (top : ObjectFrame) (frames : List Frame) (offset : Nat) (rest : Text) :
    Except Fault (Machine × Scanner.Cursor) :=
  match top.close (offset + 1) with
  | .error e => .error e
  | .ok value => .ok (deliver value frames, ⟨offset + 1, rest⟩)

/-- A repeated field is noticed after the blanks behind its key, or after a brace that stands
there. -/
def repeatedAt (after : Scanner.Cursor) : Nat :=
  let next := after.skipBlanks
  match next.rest with
  | '\x7d' :: _ => next.offset + 1
  | _ => next.offset

/-- Reads a key at a place, of which only the quote is known to be wanted. -/
def beginKey (broken : List Nat) (top : ObjectFrame) (frames : List Frame) (c : Char) (offset : Nat)
    (rest : Text) :
    Except Fault (Machine × Scanner.Cursor) :=
  if c = '"' then
    match Scanner.stringFrom top.care broken (offset + 1) rest with
    | .error e => .error e
    | .ok (key, after) =>
      if top.repeats key then .error ⟨.duplicateField key, repeatedAt after⟩
      else .ok (colon top key frames, after)
  else .error ⟨.keyNotString, offset + 1⟩

def step (broken : List Nat) (machine : Machine) (c : Char) (offset : Nat) (rest : Text) :
    Except Fault (Machine × Scanner.Cursor) :=
  let next : Scanner.Cursor := ⟨offset + 1, rest⟩
  match machine with
  | expectValue shape frames => beginValue broken shape frames c offset rest
  | firstItem top frames =>
    if c = ']' then endList top frames offset rest
    else beginValue broken top.shape (.item top :: frames) c offset rest
  | itemEnd top frames =>
    if c = ']' then endList top frames offset rest
    else if top.isFull then
      if c = ',' then .ok (extraItem, next) else .error ⟨.trailingCharacters, offset + 1⟩
    else if c = ',' then .ok (nextItem top frames, next)
    else .error ⟨.expectedItemEnd, offset + 1⟩
  | nextItem top frames =>
    if c = ']' ∧ !top.isSkipped then .error ⟨.trailingComma, offset + 1⟩
    else beginValue broken top.shape (.item top :: frames) c offset rest
  | extraItem =>
    .error ⟨if c = ']' then .trailingComma else .trailingCharacters, offset + 1⟩
  | firstKey top frames =>
    if c = '\x7d' then endObject top frames offset rest
    else beginKey broken top frames c offset rest
  | nextKey top frames =>
    if c = '\x7d' ∧ !top.isSkipped then .error ⟨.trailingComma, offset + 1⟩
    else beginKey broken top frames c offset rest
  | colon top key frames =>
    if c = ':' then .ok (expectValue (top.shapeOf key) (.member top key :: frames), next)
    else .error ⟨.expectedColon, offset + 1⟩
  | memberEnd top frames =>
    if c = '\x7d' then endObject top frames offset rest
    else if c = ',' then .ok (nextKey top frames, next)
    else .error ⟨.expectedMemberEnd, offset + 1⟩
  | finished _ => .error ⟨.trailingCharacters, offset + 1⟩

def atEnd (machine : Machine) (offset : Nat) : Except Fault Json :=
  match machine with
  | finished result => .ok result
  | expectValue _ _ | nextItem _ _ => .error ⟨.endInValue, offset⟩
  | firstItem _ _ | itemEnd _ _ => .error ⟨.endInList, offset⟩
  | extraItem => .error ⟨.trailingCharacters, offset⟩
  | nextKey top _ => .error ⟨if top.isSkipped then .endInObject else .endInValue, offset⟩
  | firstKey _ _ | colon _ _ _ | memberEnd _ _ => .error ⟨.endInObject, offset⟩

/-! Every step takes at least one character. -/

theorem stopsIn_beginValue (broken : List Nat) (shape : Shape) (frames : List Frame) (c : Char)
    (offset : Nat) (rest : Text) :
    Scanner.StopsIn rest (beginValue broken shape frames c offset rest) := by
  fun_cases beginValue broken shape frames c offset rest with
  | case3 | case6 => exact List.suffix_refl _
  | case9 _ _ value after read => exact (Scanner.stopsIn_scalar? read).of_ok rfl
  | _ => trivial

theorem stopsIn_endList (top : ListFrame) (frames : List Frame) (offset : Nat) (rest : Text) :
    Scanner.StopsIn rest (endList top frames offset rest) := by
  fun_cases endList top frames offset rest with
  | case1 => trivial
  | case2 => exact List.suffix_refl _

theorem stopsIn_endObject (top : ObjectFrame) (frames : List Frame) (offset : Nat) (rest : Text) :
    Scanner.StopsIn rest (endObject top frames offset rest) := by
  fun_cases endObject top frames offset rest with
  | case1 => trivial
  | case2 => exact List.suffix_refl _

theorem stopsIn_beginKey (broken : List Nat) (top : ObjectFrame) (frames : List Frame) (c : Char)
    (offset : Nat) (rest : Text) :
    Scanner.StopsIn rest (beginKey broken top frames c offset rest) := by
  fun_cases beginKey broken top frames c offset rest with
  | case3 _ key after read => exact (Scanner.stopsIn_stringFrom _ _ _ _).of_ok read
  | _ => trivial

theorem stopsIn_step (broken : List Nat) (machine : Machine) (c : Char) (offset : Nat)
    (rest : Text) : Scanner.StopsIn rest (step broken machine c offset rest) := by
  fun_cases step broken machine c offset rest
  all_goals first
    | exact stopsIn_beginValue _ _ _ _ _ _
    | exact stopsIn_endList _ _ _ _
    | exact stopsIn_endObject _ _ _ _
    | exact stopsIn_beginKey _ _ _ _ _ _
    | exact List.suffix_refl _
    | trivial

def run (broken : List Nat) (machine : Machine) (cursor : Scanner.Cursor) : Except Fault Json :=
  match h : cursor.rest.dropWhile Scanner.Cursor.isBlank with
  | [] => machine.atEnd cursor.skipBlanks.offset
  | c :: rest =>
    match hs : machine.step broken c cursor.skipBlanks.offset rest with
    | .error e => .error e
    | .ok (next, after) =>
      have : after.rest.length < cursor.rest.length := by
        have hle := Text.length_dropWhile_le Scanner.Cursor.isBlank cursor.rest
        have hstep := ((stopsIn_step _ _ _ _ _).of_ok hs).length_le
        rw [h, List.length_cons] at hle
        omega
      run broken next after
termination_by cursor.rest.length

end Machine

def readMarked (shape : Shape) (broken : List Nat) (text : Text) : Except ReadError Json :=
  match Machine.run broken (.expectValue shape []) (Scanner.Cursor.start text) with
  | .ok value => .ok value
  | .error fault => .error (.ofFault text fault)

def read (shape : Shape) (text : Text) : Except ReadError Json := readMarked shape [] text

/-- Pieces as a text in which a character of one byte stands for each broken byte. -/
def standInText (pieces : List Text.Piece) : Text :=
  pieces.flatMap fun
    | .char c => [c]
    | .broken count => List.replicate count '\x7f'

def brokenPlaces (offset : Nat) : List Text.Piece → List Nat
  | [] => []
  | .char c :: pieces => brokenPlaces (offset + c.utf8Size) pieces
  | .broken count :: pieces =>
    (List.range count).map (offset + ·) ++ brokenPlaces (offset + count) pieces

/-- Reads a document of a shape from bytes. What is passed over need not be UTF-8. -/
def readBytes (shape : Shape) (bytes : ByteArray) : Except ReadError Json :=
  let pieces := Text.pieces bytes
  readMarked shape (brokenPlaces 0 pieces) (standInText pieces)

end ComponentPack.Json
