import ComponentPack.Json.Reader
import ComponentPack.Proofs.Json.Grammar
import ComponentPack.Proofs.Text.Occurrence

/-!
Scalars are read for what their spelling stands for, wherever they stand and whatever follows. A
spelling that stands for nothing is refused. Only a number looks at what follows it, since a digit, a
point or an exponent would go on with it.
-/

set_option autoImplicit false

namespace ComponentPack.Json.Scanner

variable {c d : Char} {offset : Nat} {rest : Text}

/-- What was read before `rest`, or a fault if there is no value. -/
def Leaves {α : Type} (result : Except Fault (α × Cursor)) (value : Option α) (rest : Text) : Prop :=
  match value with
  | some a => ∃ offset, result = .ok (a, ⟨offset, rest⟩)
  | none => ∃ fault, result = .error fault

namespace Leaves

variable {α β : Type} {result : Except Fault (α × Cursor)} {value : Option α} {rest : Text}

theorem map (leaves : Leaves result value rest) (f : α → β) :
    Leaves (result.map fun found => (f found.1, found.2)) (value.map f) rest := by
  cases value with
  | none =>
    obtain ⟨fault, rfl⟩ := leaves
    exact ⟨fault, rfl⟩
  | some a =>
    obtain ⟨offset, rfl⟩ := leaves
    exact ⟨offset, rfl⟩

/-- The value does not depend on the place. -/
theorem toOption_eq (leaves : Leaves result value rest) :
    result.toOption.map Prod.fst = value := by
  cases value with
  | none =>
    obtain ⟨fault, rfl⟩ := leaves
    rfl
  | some a =>
    obtain ⟨offset, rfl⟩ := leaves
    rfl

end Leaves

/-- A character enters the letters of a string. -/
def letter (c : Char) (found : List Letter × Cursor) : List Letter × Cursor :=
  (⟨c, false⟩ :: found.1, found.2)

theorem lettersFrom_escaped {next : Cursor}
    (read : escaped .strict ⟨offset + 1, rest⟩ = .ok (c, next)) :
    lettersFrom .strict [] offset ('\\' :: rest) =
      (lettersFrom .strict [] next.offset next.rest).map (letter c) := by
  rw [lettersFrom, if_neg (by decide), if_pos rfl]
  split
  · next failed => simp [read] at failed
  · next found =>
    rw [read] at found
    cases found
    cases lettersFrom .strict [] next.offset next.rest <;> rfl

theorem lettersFrom_plain (quote : c ≠ '"') (slash : c ≠ '\\') (printable : ¬ c.toNat < 0x20)
    (offset : Nat) (rest : Text) :
    lettersFrom .strict [] offset (c :: rest) =
      (lettersFrom .strict [] (offset + c.utf8Size) rest).map (letter c) := by
  rw [lettersFrom, if_neg quote, if_neg slash, if_neg printable]
  cases lettersFrom .strict [] (offset + c.utf8Size) rest <;> rfl

theorem escaped_short (known : shortEscape? c = some d) (offset : Nat) (rest : Text) :
    escaped .strict ⟨offset, c :: rest⟩ = .ok (d, ⟨offset + 1, rest⟩) := by
  have other : c ≠ 'u' := by
    rintro rfl
    simp [shortEscape?] at known
  rw [escaped]
  simp only [known]

/-- Letters without broken bytes are a string. -/
theorem stringFrom_of_letters {broken : List Nat} {source text : Text} {after : Cursor}
    (letters : lettersFrom .strict broken offset source =
      .ok (text.map fun c => ⟨c, false⟩, after)) :
    stringFrom .strict broken offset source = .ok (text, after) := by
  have sound (text : Text) :
      (text.map fun c => (⟨c, false⟩ : Letter)).dropWhile (fun l => !l.isBroken) = [] := by
    induction text with
    | nil => rfl
    | cons c text ih => exact ih
  simp only [stringFrom, letters, sound, List.isEmpty_nil, Bool.not_true, Bool.false_eq_true,
    and_false, if_false, List.map_map, Function.comp_def, List.map_id']

theorem lettersFrom_of_refused {fault : Fault}
    (refused : escaped .strict ⟨offset + 1, rest⟩ = .error fault) :
    lettersFrom .strict [] offset ('\\' :: rest) = .error fault := by
  rw [lettersFrom, if_neg (by decide), if_pos rfl]
  split
  · next failed =>
    rw [refused] at failed
    cases failed
    rfl
  · next found => simp [refused] at found

theorem escaped_code {a b : Char} {unit : Nat} (known : hexValue4? a b c d = some unit)
    (offset : Nat) (rest : Text) :
    escaped .strict ⟨offset, 'u' :: a :: b :: c :: d :: rest⟩ =
      if isTrailing unit then .error ⟨.loneSurrogate, offset + 5⟩
      else if isLeading unit then trailingSurrogate unit ⟨offset + 5, rest⟩
      else .ok (Char.ofNat unit, ⟨offset + 5, rest⟩) := by
  simp only [escaped, hexEscape, known]

theorem trailingSurrogate_code {a b : Char} {unit : Nat} (known : hexValue4? a b c d = some unit)
    (leading offset : Nat) (rest : Text) :
    trailingSurrogate leading ⟨offset, '\\' :: 'u' :: a :: b :: c :: d :: rest⟩ =
      if isTrailing unit then .ok (surrogatePair leading unit, ⟨offset + 6, rest⟩)
      else .error ⟨.loneSurrogate, offset + 6⟩ := by
  simp only [trailingSurrogate, hexEscape, known]

/-- Only another code may follow a leading surrogate. -/
theorem exists_trailingSurrogate_eq_error {spelling : Spelling}
    (other : ∀ a b c d unit known later, spelling = .code a b c d unit known :: later → False)
    (leading offset : Nat) (rest : Text) :
    ∃ fault, trailingSurrogate leading ⟨offset, spelling.text ++ '"' :: rest⟩ = .error fault := by
  match spelling with
  | [] => exact ⟨_, rfl⟩
  | .code a b c d unit known :: later => exact (other a b c d unit known later rfl).elim
  | .plain c quote slash printable :: later =>
    unfold trailingSurrogate
    split
    case h_1 | h_5 => exact ⟨_, rfl⟩
    all_goals
      next same => exact absurd (List.cons.inj same).1 slash
  | .short c stands known :: later =>
    have letter : c ≠ 'u' := by
      rintro rfl
      simp [shortEscape?] at known
    unfold trailingSurrogate
    split
    case h_3 same => exact absurd (List.cons.inj (List.cons.inj same).2).1 letter
    all_goals exact ⟨_, rfl⟩

/-- A character enters a string. -/
theorem Leaves.letter {result : Except Fault (List Letter × Cursor)} {value : Option Text}
    (leaves : Leaves result (value.map fun text => text.map (⟨·, false⟩)) rest) (c : Char) :
    Leaves (result.map (Scanner.letter c))
      ((value.map (c :: ·)).map fun text => text.map (⟨·, false⟩)) rest := by
  rw [Option.map_map]
  have mapped := leaves.map (⟨c, false⟩ :: ·)
  rw [Option.map_map] at mapped
  exact mapped

theorem leaves_lettersFrom (spelling : Spelling) (offset : Nat) (rest : Text) :
    Leaves (lettersFrom .strict [] offset (spelling.text ++ '"' :: rest))
      (spelling.value?.map fun text => text.map (⟨·, false⟩)) rest := by
  induction spelling using Spelling.value?.induct generalizing offset with
  | case1 =>
    refine ⟨offset + 1, ?_⟩
    rw [Spelling.text, List.flatMap_nil, List.nil_append, lettersFrom, if_pos rfl]
    rfl
  | case2 c quote slash printable later ih =>
    have step := lettersFrom_plain quote slash printable offset
      (Spelling.text later ++ '"' :: rest)
    rw [Spelling.value?]
    exact step ▸ (ih (offset + c.utf8Size)).letter c
  | case3 c stands known later ih =>
    have step := lettersFrom_escaped
      (escaped_short known (offset + 1) (Spelling.text later ++ '"' :: rest))
    rw [Spelling.value?]
    exact step ▸ (ih _).letter stands
  | case4 a b c d leading known a' b' c' d' unit known' later trails =>
    rw [Spelling.value?, if_pos trails]
    exact ⟨_, lettersFrom_of_refused ((escaped_code known _ _).trans (if_pos trails))⟩
  | case5 a b c d leading known a' b' c' d' unit known' later alone leads trails ih =>
    have pair : escaped .strict ⟨offset + 1, 'u' :: a :: b :: c :: d ::
        '\\' :: 'u' :: a' :: b' :: c' :: d' :: (Spelling.text later ++ '"' :: rest)⟩ =
          .ok (surrogatePair leading unit, ⟨offset + 12, Spelling.text later ++ '"' :: rest⟩) := by
      rw [escaped_code known, if_neg alone, if_pos leads, trailingSurrogate_code known',
        if_pos trails]
    rw [Spelling.value?, if_neg alone, if_pos leads, if_pos trails]
    exact lettersFrom_escaped pair ▸ (ih _).letter _
  | case6 a b c d leading known a' b' c' d' unit known' later alone leads other =>
    rw [Spelling.value?, if_neg alone, if_pos leads, if_neg other]
    have one := escaped_code known (offset + 1)
      (Spelling.text (.code a' b' c' d' unit known' :: later) ++ '"' :: rest)
    rw [if_neg alone, if_pos leads] at one
    have second := (trailingSurrogate_code known' leading (offset + 6)
      (Spelling.text later ++ '"' :: rest)).trans (if_neg other)
    exact ⟨_, lettersFrom_of_refused (one.trans second)⟩
  | case7 a b c d leading known a' b' c' d' unit known' later alone first ih =>
    have one := escaped_code known (offset + 1)
      (Spelling.text (.code a' b' c' d' unit known' :: later) ++ '"' :: rest)
    rw [if_neg alone, if_neg first] at one
    rw [Spelling.value?, if_neg alone, if_neg first]
    exact lettersFrom_escaped one ▸ (ih _).letter _
  | case8 a b c d unit known later other surrogate =>
    rw [Spelling.value?, if_pos surrogate]
    · have one := escaped_code known (offset + 1) (Spelling.text later ++ '"' :: rest)
      by_cases trails : isTrailing unit = true
      · exact ⟨_, lettersFrom_of_refused (one.trans (if_pos trails))⟩
      · have leads : isLeading unit = true := by simpa [trails] using surrogate
        rw [if_neg trails, if_pos leads] at one
        obtain ⟨fault, alone⟩ := exists_trailingSurrogate_eq_error other unit _ rest
        exact ⟨fault, lettersFrom_of_refused (one.trans alone)⟩
    · exact other
  | case9 a b c d unit known later other plain ih =>
    rw [Spelling.value?, if_neg plain]
    · have one := escaped_code known (offset + 1) (Spelling.text later ++ '"' :: rest)
      obtain ⟨alone, first⟩ : ¬ isTrailing unit = true ∧ ¬ isLeading unit = true := by
        simpa using plain
      rw [if_neg alone, if_neg first] at one
      exact lettersFrom_escaped one ▸ (ih _).letter _
    · exact other

theorem leaves_stringFrom (spelling : Spelling) (offset : Nat) (rest : Text) :
    Leaves (stringFrom .strict [] offset (spelling.text ++ '"' :: rest)) spelling.value? rest := by
  have letters := leaves_lettersFrom spelling offset rest
  cases value : spelling.value? with
  | none =>
    rw [value] at letters
    obtain ⟨fault, refused⟩ := letters
    exact ⟨fault, by rw [stringFrom, refused]⟩
  | some text =>
    rw [value] at letters
    obtain ⟨offset', read⟩ := letters
    exact ⟨offset', stringFrom_of_letters read⟩

/-- No character of a number begins the text. -/
def Stops (rest : Text) : Prop :=
  ∀ c ∈ rest.head?, c.isDigit = false ∧ c ≠ '.' ∧ c ≠ 'e' ∧ c ≠ 'E'

theorem exponentPart_of_stops (stops : Stops rest) :
    exponentPart .strict ⟨offset, rest⟩ = .ok (none, ⟨offset, rest⟩) := by
  cases rest with
  | nil => rfl
  | cons c rest =>
    have other : ¬ (c = 'e' ∨ c = 'E') := not_or.mpr (stops c rfl).2.2
    simp only [exponentPart, if_neg other]

section Digits

variable {digits rest : Text}

theorem digitsOf_append (isDigits : IsDigits digits) (ends : ∀ c ∈ rest.head?, c.isDigit = false) :
    digitsOf (digits ++ rest) = digits :=
  Text.takeWhile_append_eq isDigits.digits ends

theorem dropWhile_digits (isDigits : IsDigits digits) (ends : ∀ c ∈ rest.head?, c.isDigit = false) :
    (digits ++ rest).dropWhile Char.isDigit = rest :=
  Text.dropWhile_append_eq isDigits.digits ends

theorem wholePart_digits (isDigits : IsDigits digits)
    (leading : digits.head? = some '0' → digits = ['0'])
    (ends : ∀ c ∈ rest.head?, c.isDigit = false) (offset : Nat) :
    wholePart .strict ⟨offset, digits ++ rest⟩ = .ok (digits, ⟨offset + digits.length, rest⟩) := by
  simp only [wholePart, digitsOf_append isDigits ends, dropWhile_digits isDigits ends]
  cases digits with
  | nil => exact absurd rfl isDigits.some
  | cons first others =>
    have lone : ¬ (first = '0' ∧ (!others.isEmpty) = true) := by
      rintro ⟨rfl, more⟩
      cases leading rfl
      simp at more
    simp only [if_neg lone]

theorem fractionPart_digits (isDigits : IsDigits digits)
    (ends : ∀ c ∈ rest.head?, c.isDigit = false) (offset : Nat) :
    fractionPart .strict ⟨offset, '.' :: (digits ++ rest)⟩ =
      .ok (some digits, ⟨offset + 1 + digits.length, rest⟩) := by
  have more : ¬ digits.isEmpty = true := by simpa using isDigits.some
  simp only [fractionPart, digitsOf_append isDigits ends, dropWhile_digits isDigits ends,
    if_neg more]

theorem fractionPart_of_ne (other : rest.head? ≠ some '.') (offset : Nat) :
    fractionPart .strict ⟨offset, rest⟩ = .ok (none, ⟨offset, rest⟩) := by
  unfold fractionPart
  split
  case h_1 tail point =>
    have point : rest = '.' :: tail := point
    exact absurd (by rw [point]; rfl) other
  case h_2 => rfl

/-- A sign before digits is taken as such. -/
theorem exponentSign_digits (isDigits : IsDigits digits) {sign : Text}
    (isSign : sign = [] ∨ sign = ['+'] ∨ sign = ['-']) (offset : Nat) :
    exponentSign ⟨offset, sign ++ (digits ++ rest)⟩ =
      (decide (sign = ['-']), ⟨offset + sign.length, digits ++ rest⟩) := by
  rcases isSign with rfl | rfl | rfl
  · obtain ⟨some, each⟩ := isDigits
    cases digits with
    | nil => exact absurd rfl some
    | cons c digits =>
      have digit := each c List.mem_cons_self
      have plus : c ≠ '+' := by
        rintro rfl
        exact absurd digit (by decide)
      have minus : c ≠ '-' := by
        rintro rfl
        exact absurd digit (by decide)
      unfold exponentSign
      split
      case h_1 same => exact absurd (List.cons.inj same).1 plus
      case h_2 same => exact absurd (List.cons.inj same).1 minus
      case h_3 => rfl
  · rfl
  · rfl

end Digits

theorem exponentPart_exponent (exponent : Exponent) (ends : ∀ c ∈ rest.head?, c.isDigit = false)
    (offset : Nat) :
    ∃ offset', exponentPart .strict ⟨offset, exponent.text ++ rest⟩ =
      .ok (some (decide (exponent.sign = ['-']), exponent.digits), ⟨offset', rest⟩) := by
  have more : ¬ exponent.digits.isEmpty = true := by simpa using exponent.isDigits.some
  refine ⟨offset + 1 + exponent.sign.length + exponent.digits.length, ?_⟩
  rw [Exponent.text, List.append_assoc, List.cons_append]
  simp only [exponentPart, if_pos exponent.isMark,
    exponentSign_digits exponent.isDigits exponent.isSign,
    digitsOf_append exponent.isDigits ends, dropWhile_digits exponent.isDigits ends, if_neg more]

theorem numberParts_unsigned (numeral : Numeral) (stops : Stops rest) (offset : Nat) :
    ∃ offset', numberParts .strict ⟨offset, numeral.unsigned ++ rest⟩ =
      .ok (numeral.parts, ⟨offset', rest⟩) := by
  obtain ⟨negative, whole, isWhole, leading, fraction, isFraction, exponent⟩ := numeral
  have ends : ∀ c ∈ rest.head?, c.isDigit = false := fun c here => (stops c here).1
  -- What follows the fraction neither goes on with its digits nor begins another one.
  have power : ∃ tail, (exponent.map Exponent.text).getD [] ++ rest = tail ∧
      (∀ c ∈ tail.head?, c.isDigit = false ∧ c ≠ '.') ∧ ∀ offset, ∃ offset',
        exponentPart .strict ⟨offset, tail⟩ =
          .ok (exponent.map fun e => (decide (e.sign = ['-']), e.digits), ⟨offset', rest⟩) := by
    refine ⟨_, rfl, ?_⟩
    cases exponent with
    | none =>
      exact ⟨fun c here => ⟨(stops c here).1, (stops c here).2.1⟩,
        fun offset => ⟨offset, exponentPart_of_stops stops⟩⟩
    | some exponent =>
      refine ⟨?_, exponentPart_exponent exponent ends⟩
      rintro c ⟨⟩
      rcases exponent.isMark with mark | mark <;> (rw [mark]; decide)
  obtain ⟨tail, after, begins, power⟩ := power
  have point : ∃ middle, (fraction.map ('.' :: ·)).getD [] ++ tail = middle ∧
      (∀ c ∈ middle.head?, c.isDigit = false) ∧ ∀ offset, ∃ offset',
        fractionPart .strict ⟨offset, middle⟩ = .ok (fraction, ⟨offset', tail⟩) := by
    refine ⟨_, rfl, ?_⟩
    cases fraction with
    | none =>
      exact ⟨fun c here => (begins c here).1, fun offset =>
        ⟨offset, fractionPart_of_ne (fun here => (begins _ here).2 rfl) offset⟩⟩
    | some digits =>
      refine ⟨?_, fun offset => ⟨_, fractionPart_digits (isFraction digits rfl)
        (fun c here => (begins c here).1) offset⟩⟩
      rintro c ⟨⟩
      decide
  obtain ⟨middle, before, starts, point⟩ := point
  have wholes := wholePart_digits isWhole leading starts offset
  obtain ⟨second, fractions⟩ := point (offset + whole.length)
  obtain ⟨third, powers⟩ := power second
  refine ⟨third, ?_⟩
  simp only [Numeral.unsigned, List.append_assoc, after, before, numberParts, wholes, fractions,
    powers, Numeral.parts]

/-- Whether a number is in range does not depend on its place. -/
theorem toOption_value (negative : Bool) (parts : NumberParts) (offset offset' : Nat) :
    (parts.value negative offset).toOption = (parts.value negative offset').toOption := by
  have float (digits : Nat) (exponent : Int) :
      (NumberParts.float negative offset digits exponent).toOption =
        (NumberParts.float negative offset' digits exponent).toOption := by
    unfold NumberParts.float
    split <;> rfl
  simp only [NumberParts.value]
  split
  · split
    · exact float _ _
    · split <;> rfl
  · split
    · split
      · rfl
      · exact float _ _
    · exact float _ _

theorem leaves_number (numeral : Numeral) (stops : Stops rest) (offset : Nat) :
    Leaves (number .strict numeral.negative ⟨offset, numeral.unsigned ++ rest⟩) numeral.value?
      rest := by
  obtain ⟨offset', parts⟩ := numberParts_unsigned numeral stops offset
  rw [Numeral.value?, toOption_value numeral.negative numeral.parts 0 offset']
  simp only [number, parts]
  cases numeral.parts.value numeral.negative offset' with
  | error fault => exact ⟨fault, rfl⟩
  | ok n => exact ⟨offset', rfl⟩

/-- The character begins a scalar: it is no blank and no mark. -/
structure Begins (c : Char) : Prop where
  solid : Cursor.isBlank c = false
  unlike : ∀ mark : Mark, c ≠ mark.char

/-- A digit begins a number. -/
theorem Begins.of_digit (digit : c.isDigit = true) :
    Begins c ∧ c ≠ 'n' ∧ c ≠ 't' ∧ c ≠ 'f' ∧ c ≠ '-' := by
  refine ⟨⟨?_, fun mark => ?_⟩, ?_, ?_, ?_, ?_⟩
  · simp only [Cursor.isBlank, Bool.or_eq_false_iff, beq_eq_false_iff_ne]
    refine ⟨⟨⟨?_, ?_⟩, ?_⟩, ?_⟩ <;> (rintro rfl; exact absurd digit (by decide))
  · cases mark <;> (rintro rfl; exact absurd digit (by decide))
  all_goals rintro rfl; exact absurd digit (by decide)

/-- The text is read for the value, if there is one, wherever it stands. -/
structure Spells (text : Text) (value : Option Json) : Prop where
  begins : ∀ c tail, text = c :: tail → Begins c
  reads : ∃ c tail, text = c :: tail ∧ ∀ offset rest, Stops rest → ∃ result,
    scalar? .strict [] c offset (tail ++ rest) = some result ∧ Leaves result value rest

theorem Spells.of_cons {tail : Text} {value : Option Json} (begins : Begins c)
    (reads : ∀ offset rest, Stops rest → ∃ result,
      scalar? .strict [] c offset (tail ++ rest) = some result ∧ Leaves result value rest) :
    Spells (c :: tail) value := by
  refine ⟨fun d more same => ?_, c, tail, rfl, reads⟩
  cases same
  exact begins

theorem word_append (letters : Text) (offset : Nat) (rest : Text) :
    word letters ⟨offset, letters ++ rest⟩ = .ok ⟨offset + letters.length, rest⟩ := by
  induction letters generalizing offset with
  | nil => rfl
  | cons letter letters ih =>
    rw [List.cons_append, word, if_pos rfl, ih, List.length_cons]
    congr 2
    omega

/-- A word is read for its value. -/
theorem Spells.of_word {letters : Text} {value : Json} (begins : Begins c)
    (reads : ∀ offset rest, scalar? .strict [] c offset rest =
      some ((word letters ⟨offset + 1, rest⟩).map fun after => (value, after))) :
    Spells (c :: letters) (some value) := by
  refine .of_cons begins fun offset rest _ => ⟨_, reads offset _, ?_⟩
  rw [word_append]
  exact ⟨_, rfl⟩

theorem spells_string (spelling : Spelling) :
    Spells ('"' :: (spelling.text ++ ['"'])) (spelling.value?.map .string) := by
  refine .of_cons ⟨by decide, fun mark => by cases mark <;> decide⟩ fun offset rest _ => ?_
  refine ⟨_, rfl, ?_⟩
  rw [List.append_assoc]
  exact (leaves_stringFrom spelling (offset + 1) rest).map Json.string

theorem spells_numeral (numeral : Numeral) :
    Spells numeral.text (numeral.value?.map .number) := by
  have reads := fun (rest : Text) (stops : Stops rest) => leaves_number numeral stops
  cases sign : numeral.negative with
  | true =>
    rw [Numeral.text, sign]
    rw [sign] at reads
    refine .of_cons ⟨by decide, fun mark => by cases mark <;> decide⟩ fun offset rest stops => ?_
    exact ⟨_, rfl, (reads rest stops (offset + 1)).map Json.number⟩
  | false =>
    rw [Numeral.text, sign]
    rw [sign] at reads
    obtain ⟨c, tail, shape, digit⟩ : ∃ c tail, numeral.unsigned = c :: tail ∧ c.isDigit = true := by
      cases whole : numeral.whole with
      | nil => exact absurd whole numeral.isWhole.some
      | cons c digits =>
        refine ⟨c, _, by rw [Numeral.unsigned, whole, List.cons_append], ?_⟩
        exact numeral.isWhole.digits c (whole ▸ List.mem_cons_self)
    obtain ⟨begins, null, yes, no, minus⟩ := Begins.of_digit digit
    simp only [shape, List.cons_append, Bool.false_eq_true, if_false] at reads ⊢
    refine .of_cons begins fun offset rest stops => ?_
    refine ⟨_, ?_, (reads rest stops offset).map Json.number⟩
    simp only [scalar?, if_neg null, if_neg yes, if_neg no, if_neg minus, if_pos digit]

theorem spells_scalar (scalar : Scalar) : Spells scalar.text scalar.value? := by
  match scalar with
  | .null => exact .of_word ⟨by decide, fun mark => by cases mark <;> decide⟩ fun _ _ => rfl
  | .bool true => exact .of_word ⟨by decide, fun mark => by cases mark <;> decide⟩ fun _ _ => rfl
  | .bool false => exact .of_word ⟨by decide, fun mark => by cases mark <;> decide⟩ fun _ _ => rfl
  | .number numeral => exact spells_numeral numeral
  | .string spelling => exact spells_string spelling

end ComponentPack.Json.Scanner
