import ComponentPack.Instances

/-!
Text as a list of characters, and the few cuts of it that the other modules share: blanks at the
ends, the first place of a phrase, lines. Offsets in messages count UTF-8 bytes (`byteSize`).
-/

namespace ComponentPack

/-- Text is read and built as a list of characters; a file holds its UTF-8 bytes. -/
abbrev Text := List Char

namespace Text

instance : Coe String Text := ⟨String.toList⟩

instance : LawfulBEq Text := inferInstance

instance : Std.Trichotomous (α := Text) (· < ·) := inferInstance

instance : Std.Trichotomous (α := List Text) (· < ·) := inferInstance

/-- The number of bytes of the UTF-8 form. -/
def byteSize : Text → Nat
  | [] => 0
  | c :: rest => c.utf8Size + byteSize rest

/-- The Unicode property White_Space. -/
def isBlank (c : Char) : Bool :=
  let n := c.toNat
  (0x9 ≤ n && n ≤ 0xD) || n == 0x20 || n == 0x85 || n == 0xA0 || n == 0x1680 ||
    (0x2000 ≤ n && n ≤ 0x200A) || n == 0x2028 || n == 0x2029 || n == 0x202F || n == 0x205F ||
    n == 0x3000

/-- The blanks of markup: tab, line feed, form feed, carriage return and space. -/
def isAsciiBlank (c : Char) : Bool :=
  c == ' ' || c == '\t' || c == '\n' || c == '\r' || c == '\x0c'

def trimStart (text : Text) : Text := text.dropWhile isBlank

def trimEnd (text : Text) : Text := (text.reverse.dropWhile isBlank).reverse

def trim (text : Text) : Text := trimEnd (trimStart text)

/-- ASCII letters in lower case; every other character stays. -/
def lower (text : Text) : Text := text.map Char.toLower

/-- The text before the first occurrence of a phrase, and the text after it. -/
def cut? (phrase : Text) : Text → Option (Text × Text)
  | [] => if phrase.isEmpty then some ([], []) else none
  | c :: rest =>
    match phrase.isPrefixOf? (c :: rest) with
    | some tail => some ([], tail)
    | none => (cut? phrase rest).map fun (head, tail) => (c :: head, tail)

/-- The text before the last occurrence of a character, and the text after it. -/
def cutLast? (mark : Char) : Text → Option (Text × Text)
  | [] => none
  | c :: rest =>
    match cutLast? mark rest with
    | some (head, tail) => some (c :: head, tail)
    | none => if c = mark then some ([], rest) else none

def contains (phrase text : Text) : Bool := (cut? phrase text).isSome

/-- The pieces between the occurrences of a character: always at least one. -/
def splitAll (mark : Char) : Text → List Text
  | [] => [[]]
  | c :: rest =>
    if c = mark then [] :: splitAll mark rest
    else match splitAll mark rest with
      | [] => [[c]]
      | piece :: pieces => (c :: piece) :: pieces

/-- Lines end at a line feed, which a carriage return may precede; a text that ends with a line
feed has no further line. -/
def lines : Text → List Text
  | [] => []
  | '\n' :: rest => [] :: lines rest
  | '\r' :: '\n' :: rest => [] :: lines rest
  | c :: rest =>
    match lines rest with
    | [] => [[c]]
    | line :: others => (c :: line) :: others

def joinLines (parts : List Text) : Text := List.intercalate ['\n'] parts

def ofNat (n : Nat) : Text := (Nat.toDigits 10 n)

def ofInt (i : Int) : Text :=
  match i with
  | .ofNat n => ofNat n
  | .negSucc n => '-' :: ofNat (n + 1)

def toBytes (text : Text) : ByteArray := (String.ofList text).toUTF8

def ofBytes? (bytes : ByteArray) : Option Text := (String.fromUTF8? bytes).map String.toList

theorem ofBytes?_toBytes (text : Text) : ofBytes? (toBytes text) = some text := by
  rw [ofBytes?, toBytes, String.fromUTF8?, String.toUTF8,
    dif_pos (String.ofList text).isValidUTF8]
  exact congrArg some String.toList_ofList

/-! What a cut leaves is no longer than the text. -/

theorem eq_append_of_isPrefixOf? {phrase text rest : Text}
    (h : phrase.isPrefixOf? text = some rest) : text = phrase ++ rest := by
  induction phrase generalizing text with
  | nil => exact Option.some.inj h
  | cons c phrase ih =>
    cases text with
    | nil =>
      change none = some rest at h
      simp at h
    | cons d text =>
      change (if c == d then phrase.isPrefixOf? text else none) = some rest at h
      split at h
      · next heq => rw [eq_of_beq heq, ih h, List.cons_append]
      · simp at h

theorem length_dropWhile_le (p : Char → Bool) (text : Text) :
    (text.dropWhile p).length ≤ text.length :=
  (List.dropWhile_suffix p).length_le

theorem eq_append_of_cut? {phrase text head tail : Text}
    (h : cut? phrase text = some (head, tail)) : text = head ++ (phrase ++ tail) := by
  induction text generalizing head with
  | nil =>
    rw [cut?] at h
    split at h <;> simp_all
  | cons c rest ih =>
    rw [cut?] at h
    split at h
    · next t ht =>
      cases h
      rw [List.nil_append, eq_append_of_isPrefixOf? ht]
    · obtain ⟨⟨a, b⟩, hab, hp⟩ := Option.map_eq_some_iff.1 h
      cases hp
      rw [ih hab, List.cons_append]

theorem length_le_of_cut? {phrase text head tail : Text}
    (h : cut? phrase text = some (head, tail)) : tail.length ≤ text.length := by
  rw [eq_append_of_cut? h, List.length_append, List.length_append]
  omega

/-- Whether a code point lies in a set. The first number says how many code points are on this side
of the set, the next one how many follow on the other side, and so on by turns. -/
def inRuns (inside : Bool) : List Nat → Nat → Bool
  | [], _ => false
  | run :: runs, n => if n < run then inside else inRuns (!inside) runs (n - run)

end Text

end ComponentPack
