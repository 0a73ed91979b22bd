import ComponentPack.Json.Printer
import ComponentPack.Proofs.Json.Documents

/-!
Printed values are read back. The pretty form of a value whose numbers are whole lays out a document,
at any depth of indentation. The document stands for the value, if that is one that the reader can
return, and the keys of its objects ascend byte by byte.
-/

set_option autoImplicit false

namespace ComponentPack.Json

variable {n level : Nat} {shape : Shape} {value : Json}

namespace Scanner

theorem hexValue?_hexDigit : ∀ n < 16, hexValue? (hexDigit n) = some n := by
  decide

theorem hexValue4?_hexDigit (small : n < 0x20) :
    hexValue4? '0' '0' (hexDigit (n / 16)) (hexDigit (n % 16)) = some n := by
  have zero : hexValue? '0' = some 0 := by decide
  have high := hexValue?_hexDigit (n / 16) (by omega)
  have low := hexValue?_hexDigit (n % 16) (by omega)
  have whole : ((0 * 16 + 0) * 16 + n / 16) * 16 + n % 16 = n := by omega
  simp only [hexValue4?, zero, high, low, whole]

theorem not_surrogate (small : n < 0x20) : isTrailing n = false ∧ isLeading n = false := by
  simp only [isTrailing, isLeading, Bool.and_eq_false_iff, decide_eq_false_iff_not]
  omega

end Scanner

/-- The part of a string that stands for a character in printed text. -/
def StringPart.ofChar (c : Char) : StringPart :=
  if quote : c = '"' then .short '"' '"' (by decide)
  else if slash : c = '\\' then .short '\\' '\\' (by decide)
  else if c = '\n' then .short 'n' '\n' (by decide)
  else if c = '\r' then .short 'r' '\r' (by decide)
  else if c = '\t' then .short 't' '\t' (by decide)
  else if c.toNat = 0x8 then .short 'b' '\x08' (by decide)
  else if c.toNat = 0xC then .short 'f' '\x0c' (by decide)
  else if small : c.toNat < 0x20 then
    .code '0' '0' (hexDigit (c.toNat / 16)) (hexDigit (c.toNat % 16)) c.toNat
      (Scanner.hexValue4?_hexDigit small)
  else .plain c quote slash small

theorem StringPart.text_ofChar (c : Char) : (ofChar c).text = escape c := by
  unfold ofChar escape
  repeat' split
  all_goals rfl

namespace Spelling

/-- The spelling of a text in printed text. -/
def ofText (text : Text) : Spelling := text.map StringPart.ofChar

theorem text_ofText (text : Text) : (ofText text).text = text.flatMap escape := by
  simp only [Spelling.text, ofText, List.flatMap_map, StringPart.text_ofChar]

/-- A code that is no surrogate stands for a character, whatever follows. -/
theorem value?_code_cons {a b c d : Char} {unit : Nat}
    (known : Scanner.hexValue4? a b c d = some unit) (trailing : Scanner.isTrailing unit = false)
    (leading : Scanner.isLeading unit = false) (later : Spelling) :
    value? (.code a b c d unit known :: later) = (value? later).map (Char.ofNat unit :: ·) := by
  match later with
  | .code a' b' c' d' unit' known' :: later =>
    simp only [value?, trailing, leading, Bool.false_eq_true, if_false]
  | [] => simp [value?, trailing, leading]
  | .plain c' quote slash printable :: later => simp [value?, trailing, leading]
  | .short c' stands known' :: later => simp [value?, trailing, leading]

theorem value?_ofChar_cons (c : Char) (later : Spelling) :
    value? (.ofChar c :: later) = (value? later).map (c :: ·) := by
  have char {n : Nat} (same : c.toNat = n) : c = Char.ofNat n := by
    rw [← same, Char.ofNat_toNat]
  unfold StringPart.ofChar
  split
  · next same => rw [value?, same]
  split
  · next same => rw [value?, same]
  split
  · next same => rw [value?, same]
  split
  · next same => rw [value?, same]
  split
  · next same => rw [value?, same]
  split
  · next same => rw [value?, char same]
  split
  · next same => rw [value?, char same]
  split
  · next small =>
    obtain ⟨trailing, leading⟩ := Scanner.not_surrogate small
    rw [value?_code_cons _ trailing leading, Char.ofNat_toNat]
  · rw [value?]

theorem value?_ofText (text : Text) : (ofText text).value? = some text := by
  induction text with
  | nil => rfl
  | cons c text ih =>
    rw [ofText, List.map_cons, value?_ofChar_cons, ← ofText, ih]
    rfl

end Spelling

theorem text_string (text : Text) : (Scalar.string (.ofText text)).text = quote text := by
  rw [Scalar.text, Spelling.text_ofText]
  rfl

namespace Scanner

theorem le_ofDigitChars (digits : Text) (start : Nat) :
    start ≤ Nat.ofDigitChars 10 digits start := by
  induction digits generalizing start with
  | nil => exact Nat.le_refl start
  | cons c digits ih =>
    rw [Nat.ofDigitChars_cons]
    exact Nat.le_trans (by omega) (ih _)

/-- Digits that stay in range are all taken. -/
theorem significand_eq {digits : Text} {start : Nat}
    (small : Nat.ofDigitChars 10 digits start ≤ maxSignificand) :
    significand start digits = (Nat.ofDigitChars 10 digits start, 0) := by
  induction digits generalizing start with
  | nil => rfl
  | cons c digits ih =>
    have next : start * 10 + digitValue c = 10 * start + (c.toNat - '0'.toNat) := by
      rw [digitValue, Nat.mul_comm]
    rw [Nat.ofDigitChars_cons, ← next] at small
    have bound := Nat.le_trans (le_ofDigitChars digits _) small
    simp only [significand]
    rw [if_neg (Nat.not_lt.mpr bound), ih small, Nat.ofDigitChars_cons, next]

theorem head?_toDigits (positive : 0 < n) : (Nat.toDigits 10 n).head? ≠ some '0' := by
  induction n using Nat.strongRecOn with
  | ind n ih =>
    by_cases small : n < 10
    · have digits : ∀ n < 10, 0 < n → [Nat.digitChar n].head? ≠ some '0' := by decide
      rw [Nat.toDigits_of_lt_base small]
      exact digits n small positive
    · have above : 10 ≤ n := Nat.not_lt.mp small
      rw [Nat.toDigits_of_base_le (by decide) above,
        List.head?_append_of_ne_nil _ Nat.toDigits_ne_nil]
      exact ih (n / 10) (by omega) (by omega)

end Scanner

theorem isDigits_ofNat (n : Nat) : IsDigits (Text.ofNat n) where
  some := Nat.toDigits_ne_nil
  digits _ member := Nat.isDigit_of_mem_toDigits (by decide) (by decide) member

/-- An integer as it is printed. -/
def Numeral.ofInt (i : Int) : Numeral where
  negative := decide (i < 0)
  whole := Text.ofNat i.natAbs
  isWhole := isDigits_ofNat i.natAbs
  leading := by
    intro zero
    rcases Nat.eq_zero_or_pos i.natAbs with none | positive
    · rw [none]
      rfl
    · exact absurd zero (Scanner.head?_toDigits positive)
  fraction := none
  isFraction _ none := by cases none
  exponent := none

theorem Numeral.text_ofInt (i : Int) : (Numeral.ofInt i).text = (Number.integer i).render := by
  cases i with
  | ofNat n =>
    have sign : (Numeral.ofInt (.ofNat n)).negative = false := by simp [Numeral.ofInt]
    rw [Numeral.text, sign]
    simp [Numeral.unsigned, Numeral.ofInt, Number.render, Text.ofInt]
  | negSucc n =>
    have sign : (Numeral.ofInt (.negSucc n)).negative = true := by
      simp [Numeral.ofInt, Int.negSucc_lt_zero]
    rw [Numeral.text, sign]
    simp [Numeral.unsigned, Numeral.ofInt, Number.render, Text.ofInt]

theorem Numeral.value?_ofInt {i : Int} (low : -2 ^ (63 : Nat) ≤ i)
    (high : i ≤ Scanner.maxSignificand) : (Numeral.ofInt i).value? = some (.integer i) := by
  have small : i.natAbs ≤ Scanner.maxSignificand := by
    simp only [Scanner.maxSignificand] at high ⊢
    omega
  have digits : Scanner.significand 0 (Text.ofNat i.natAbs) = (i.natAbs, 0) := by
    have whole : Nat.ofDigitChars 10 (Text.ofNat i.natAbs) 0 = i.natAbs :=
      Nat.ofDigitChars_ten_toDigits
    rw [Scanner.significand_eq (by rw [whole]; exact small), whole]
  have known : Scanner.integer? (decide (i < 0)) i.natAbs = some i := by
    by_cases negative : i < 0
    · have bound : 0 < i.natAbs ∧ i.natAbs ≤ 2 ^ (63 : Nat) := by omega
      simp only [Scanner.integer?, negative, bound]
      exact congrArg some (by omega)
    · simp only [Scanner.integer?, negative]
      exact congrArg some (by omega)
  simp only [Numeral.value?, Numeral.parts, Numeral.ofInt, Scanner.NumberParts.value,
    Scanner.NumberParts.scaled, digits, known]
  rfl

/-- The zero with a sign as it is printed. -/
def Numeral.negativeZero : Numeral where
  negative := true
  whole := ['0']
  isWhole := ⟨by decide, List.forall_mem_singleton.mpr rfl⟩
  leading _ := rfl
  fraction := some ['0']
  isFraction := by
    rintro digits ⟨⟩
    exact ⟨by decide, List.forall_mem_singleton.mpr rfl⟩
  exponent := none

theorem Numeral.value?_negativeZero :
    Numeral.negativeZero.value? = some (.float (Binary64.zero true)) := by
  have known : Binary64.ofDecimal? true 0 (-1) = some (Binary64.zero true) := by decide
  change (Scanner.NumberParts.float true 0 0 (-1)).toOption = _
  rw [Scanner.NumberParts.float, known]
  rfl

namespace Spread

variable {tokens tokens' : List Token} {text text' : Text}

theorem append (first : Spread tokens text) (second : Spread tokens' text') :
    Spread (tokens ++ tokens') (text ++ text') := by
  induction first with
  | nil => exact second
  | cons blank token rest ih =>
    rw [List.append_assoc, List.append_assoc, List.cons_append]
    exact .cons blank token ih

theorem one (token : Token) : Spread [token] token.text := by
  have blank : IsGap [] := fun _ none => absurd none List.not_mem_nil
  have alone := Spread.cons blank token .nil
  rwa [List.nil_append, List.append_nil] at alone

/-- Blanks may stand before any token. -/
theorem gap {gap : Text} (blank : IsGap gap) (spread : Spread tokens text) (some : tokens ≠ []) :
    Spread tokens (gap ++ text) := by
  cases spread with
  | nil => exact absurd rfl some
  | cons before token rest =>
    rw [← List.append_assoc]
    exact .cons (List.forall_mem_append.mpr ⟨blank, before⟩) token rest

theorem mark (mark : Mark) (spread : Spread tokens text) :
    Spread (.mark mark :: tokens) (mark.char :: text) :=
  (one (.mark mark)).append spread

end Spread

section Block

variable {ε : Type} {entries : List ε} {row : ε → List Token} {write : ε → Text}

theorem isGap_newLine (depth : Nat) : IsGap (newLine depth) := by
  intro c member
  rcases List.mem_cons.mp member with rfl | member
  · decide
  · exact List.eq_of_mem_replicate member ▸ (by decide)

/-- What follows the first item of a block, up to its closing bracket. -/
def furtherItems (depth : Nat) (items : List Text) : Text :=
  items.flatMap fun item => ',' :: newLine (depth + 1) ++ item

theorem block_cons (opening closing : Char) (depth : Nat) (item : Text) (items : List Text) :
    block opening closing depth (item :: items) =
      opening :: (newLine (depth + 1) ++ (item ++ (furtherItems depth items ++
        (newLine depth ++ [closing])))) := by
  simp only [block, List.isEmpty_cons, Bool.false_eq_true, if_false, intercalate_cons_eq,
    furtherItems, List.cons_append, List.append_assoc]

theorem spread_furtherItems (depth : Nat)
    (each : ∀ entry ∈ entries, row entry ≠ [] ∧ Spread (row entry) (write entry)) :
    Spread (entries.flatMap fun entry => .mark .comma :: row entry)
      (furtherItems depth (entries.map write)) := by
  induction entries with
  | nil => exact .nil
  | cons entry entries ih =>
    obtain ⟨⟨some, here⟩, later⟩ := List.forall_mem_cons.mp each
    rw [furtherItems, List.map_cons, List.flatMap_cons, List.flatMap_cons]
    exact ((here.gap (isGap_newLine (depth + 1)) some).mark .comma).append (ih later)

/-- Entries on lines of their own are laid out between brackets. -/
theorem spread_block (opening closing : Mark) (depth : Nat)
    (each : ∀ entry ∈ entries, row entry ≠ [] ∧ Spread (row entry) (write entry)) :
    Spread (.mark opening :: (List.intercalate [.mark .comma] (entries.map row) ++ [.mark closing]))
      (block opening.char closing.char depth (entries.map write)) := by
  cases entries with
  | nil => exact (Spread.one (.mark closing)).mark opening
  | cons entry entries =>
    obtain ⟨⟨some, here⟩, later⟩ := List.forall_mem_cons.mp each
    have first := here.gap (isGap_newLine (depth + 1)) some
    have last : Spread [.mark closing] (newLine depth ++ [closing.char]) :=
      (Spread.one (.mark closing)).gap (isGap_newLine depth) (by simp)
    have others := (spread_furtherItems depth later).append last
    have whole := (first.append others).mark opening
    rw [List.append_assoc] at whole
    rw [List.map_cons, List.map_cons, block_cons, intercalate_cons_eq, List.flatMap_map,
      List.append_assoc]
    exact whole

end Block

theorem Source.tokens_ne_nil (source : Source) : source.tokens ≠ [] := by
  cases source <;> simp [Source.tokens]

/-- Every document can be laid out, with any blanks before its tokens. -/
theorem Source.laidOut_flatMap (source : Source) {gap : Text} (blank : IsGap gap) :
    source.LaidOut (source.tokens.flatMap fun token => gap ++ token.text) := by
  have spread (tokens : List Token) :
      Spread tokens (tokens.flatMap fun token => gap ++ token.text) := by
    induction tokens with
    | nil => exact .nil
    | cons token tokens ih =>
      rw [List.flatMap_cons, List.append_assoc]
      exact .cons blank token ih
  exact ⟨_, [], spread source.tokens, fun _ none => absurd none List.not_mem_nil,
    (List.append_nil _).symm⟩

mutual

/-- Whether all numbers of a value are integers; a zero may have a sign. -/
def isWhole : Json → Bool
  | number (.float x) => x = Binary64.zero true
  | array items => areWhole items
  | object members => haveWhole members
  | _ => true

def areWhole : List Json → Bool
  | [] => true
  | item :: items => isWhole item && areWhole items

def haveWhole : List (Text × Json) → Bool
  | [] => true
  | (_, value) :: members => isWhole value && haveWhole members

end

theorem areWhole_iff {items : List Json} :
    areWhole items = true ↔ ∀ item ∈ items, item.isWhole = true := by
  induction items with
  | nil => simp [areWhole]
  | cons item items ih => rw [areWhole, Bool.and_eq_true, ih, List.forall_mem_cons]

theorem haveWhole_iff {members : List (Text × Json)} :
    haveWhole members = true ↔ ∀ entry ∈ members, entry.2.isWhole = true := by
  induction members with
  | nil => simp [haveWhole]
  | cons entry members ih => rw [haveWhole, Bool.and_eq_true, ih, List.forall_mem_cons]

mutual

/-- The document of a printed value whose numbers are whole. -/
def Source.ofJson : Json → Source
  | .null => .scalar .null
  | .bool value => .scalar (.bool value)
  | .number (.integer i) => .scalar (.number (.ofInt i))
  | .number (.float _) => .scalar (.number .negativeZero)
  | .string text => .scalar (.string (.ofText text))
  | .array items => .array (ofItems items)
  | .object members => .object (ofMembers members)

def Source.ofItems : List Json → List Source
  | [] => []
  | item :: items => ofJson item :: ofItems items

def Source.ofMembers : List (Text × Json) → List (Spelling × Source)
  | [] => []
  | (key, value) :: members => (.ofText key, ofJson value) :: ofMembers members

end

namespace Source

theorem ofItems_eq (items : List Json) : ofItems items = items.map ofJson := by
  induction items with
  | nil => rfl
  | cons item items ih => rw [ofItems, ih, List.map_cons]

theorem ofMembers_eq (members : List (Text × Json)) :
    ofMembers members = members.map fun entry => (.ofText entry.1, ofJson entry.2) := by
  induction members with
  | nil => rfl
  | cons entry members ih => rw [ofMembers, ih, List.map_cons]

theorem mapM_map_eq_some {α β : Type} {f : α → β} {g : β → Option α} {items : List α}
    (each : ∀ item ∈ items, g (f item) = some item) : (items.map f).mapM g = some items := by
  induction items with
  | nil => rfl
  | cons item items ih =>
    obtain ⟨here, later⟩ := List.forall_mem_cons.mp each
    rw [List.map_cons, List.mapM_cons, here, ih later]
    rfl

theorem value?_array {item : Shape} {values : List Json} (opens : shape.item? = some item)
    (room : level + 1 < Machine.maxDepth)
    (each : ∀ value ∈ values, (ofJson value).value? item (level + 1) = some value) :
    (ofJson (.array values)).value? shape level = some (.array values) := by
  rw [ofJson, ofItems_eq, value?, if_pos room, opens, Option.bind_some, values?_eq,
    mapM_map_eq_some each]
  rfl

theorem value?_object {item : Shape} {members : List (Text × Json)}
    (opens : shape.member? = some item) (room : level + 1 < Machine.maxDepth)
    (ascending : members.Pairwise fun a b => a.1 < b.1)
    (each : ∀ entry ∈ members, (ofJson entry.2).value? item (level + 1) = some entry.2) :
    (ofJson (.object members)).value? shape level = some (.object members) := by
  have sorted : .ofMembers members = Json.object members :=
    congrArg (fun d : Dictionary Text Json => Json.object d.entries)
      (Dictionary.insertAll_empty_entries ⟨members, ascending⟩)
  rw [ofJson, ofMembers_eq, value?, if_pos room, opens, Option.bind_some, pairs?_eq,
    mapM_map_eq_some fun entry member => ?_, Option.map_some, sorted]
  rw [pair?, Spelling.value?_ofText, each entry member]
  rfl

/-- The document of a value stands for it. -/
theorem value?_ofJson (fits : Fits level value) (whole : value.isWhole = true) :
    (ofJson value).value? .any level = some value := by
  induction fits with
  | null => rfl
  | bool value => rfl
  | integer low high =>
    rw [ofJson, value?, Scalar.value?, Numeral.value?_ofInt low high]
    rfl
  | float x =>
    obtain rfl : x = Binary64.zero true := of_decide_eq_true whole
    rw [ofJson, value?, Scalar.value?, Numeral.value?_negativeZero]
    rfl
  | string text =>
    rw [ofJson, value?, Scalar.value?, Spelling.value?_ofText]
    rfl
  | array room inner ih =>
    exact value?_array rfl room fun item member => ih item member (areWhole_iff.mp whole item member)
  | object room ascending inner ih =>
    exact value?_object rfl room ascending fun entry member =>
      ih entry member (haveWhole_iff.mp whole entry member)

theorem ascending_ofJson (fits : Fits level value) : (ofJson value).Ascending := by
  induction fits with
  | null | bool | string | float | integer => exact .scalar _
  | array room inner ih =>
    rw [ofJson, ofItems_eq]
    exact .array (List.forall_mem_map.mpr ih)
  | object room ascending inner ih =>
    rw [ofJson, ofMembers_eq]
    refine .object (List.pairwise_map.mpr (ascending.imp fun {a b} below => ?_))
      (List.forall_mem_map.mpr ih)
    exact ⟨a.1, b.1, Spelling.value?_ofText a.1, Spelling.value?_ofText b.1,
      Text.bytes_lt_bytes below⟩

end Source

theorem prettyItems_eq (depth : Nat) (items : List Json) :
    prettyItems depth items = items.map (prettyAt depth) := by
  induction items with
  | nil => rfl
  | cons item items ih => rw [prettyItems, ih, List.map_cons]

/-- The line of a member. -/
def memberText (write : Json → Text) (entry : Text × Json) : Text :=
  quote entry.1 ++ ": " ++ write entry.2

theorem prettyMembers_eq (depth : Nat) (members : List (Text × Json)) :
    prettyMembers depth members = members.map (memberText (prettyAt depth)) := by
  induction members with
  | nil => rfl
  | cons entry members ih =>
    rw [prettyMembers, ih, List.map_cons]
    rfl

/-- The line of a member is laid out from its tokens. -/
theorem spread_memberText {source : Source} {write : Json → Text} {entry : Text × Json}
    (spread : Spread source.tokens (write entry.2)) :
    Spread (Source.memberRow (.ofText entry.1, source)) (memberText write entry) := by
  have blank : IsGap [' '] := List.forall_mem_singleton.mpr rfl
  have key := Spread.one (.scalar (.string (.ofText entry.1)))
  have value := (spread.gap blank source.tokens_ne_nil).mark .colon
  have line := key.append value
  rw [Token.text, text_string] at line
  rw [memberText, List.append_assoc]
  exact line

/-- The pretty form of a value is laid out from its document. -/
theorem spread_prettyAt (fits : Fits level value) (whole : value.isWhole = true) (depth : Nat) :
    Spread (Source.ofJson value).tokens (prettyAt depth value) := by
  have scalar {text : Text} (s : Scalar) (same : s.text = text) :
      Spread (Source.scalar s).tokens text := same ▸ Spread.one (.scalar s)
  induction fits generalizing depth with
  | null => exact scalar .null rfl
  | bool value =>
    cases value
    · exact scalar (.bool false) rfl
    · exact scalar (.bool true) rfl
  | integer low high => exact scalar (.number (.ofInt _)) (Numeral.text_ofInt _)
  | float x =>
    obtain rfl : x = Binary64.zero true := of_decide_eq_true whole
    have written : (Number.float (Binary64.zero true)).render = "-0.0" := by decide
    exact scalar (.number .negativeZero) written.symm
  | string text => exact scalar (.string (.ofText text)) (text_string text)
  | array room inner ih =>
    rw [prettyAt, prettyItems_eq, Source.ofJson, Source.ofItems_eq, Source.tokens,
      Source.itemTokens_eq, List.map_map]
    exact spread_block .openList .closeList depth fun item member =>
      ⟨Source.tokens_ne_nil _, ih item member (areWhole_iff.mp whole item member) (depth + 1)⟩
  | object room ascending inner ih =>
    rw [prettyAt, prettyMembers_eq, Source.ofJson, Source.ofMembers_eq, Source.tokens,
      Source.memberTokens_eq, List.map_map]
    exact spread_block .openObject .closeObject depth fun entry member =>
      ⟨by simp [Source.memberRow], spread_memberText
        (ih entry member (haveWhole_iff.mp whole entry member) (depth + 1))⟩

/-- A value is read from its pretty form, with blanks after it, in each shape in which its document
stands for it. -/
theorem read_prettyAt (plain : shape.Plain) (fits : Fits 0 value) (whole : value.isWhole = true)
    (shaped : (Source.ofJson value).value? shape 0 = some value) (depth : Nat) {gap : Text}
    (blank : IsGap gap) : read shape (prettyAt depth value ++ gap) = .ok value := by
  have laid : (Source.ofJson value).LaidOut (prettyAt depth value ++ gap) :=
    ⟨_, gap, spread_prettyAt fits whole depth, blank, rfl⟩
  have same := Source.toOption_read laid plain
  rw [shaped] at same
  cases result : read shape (prettyAt depth value ++ gap) with
  | error fault =>
    rw [result] at same
    cases same
  | ok other =>
    rw [result] at same
    exact congrArg _ (Option.some.inj same)

end ComponentPack.Json
