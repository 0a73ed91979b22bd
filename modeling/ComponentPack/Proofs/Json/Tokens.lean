import ComponentPack.Proofs.Json.Bounds
import ComponentPack.Proofs.Json.Spelling
import Mathlib.Data.List.Chain

/-!
The machine reads tokens. Where a token stands and which blanks surround it changes the places of
faults only, so that a run over a text is a run over its tokens (`toOption_run`).
-/

set_option autoImplicit false

namespace ComponentPack.Json

open List

open Scanner (Begins Cursor Leaves Stops)

variable {token : Token} {tail gap text : Text} {shape : Shape} {c : Char} {machine : Machine}
  {tokens : List Token}

namespace Token

/-- What follows does not go on with the token. -/
def Ends : Token → Text → Prop
  | mark _, _ => True
  | scalar _, rest => Stops rest

theorem exists_text (token : Token) :
    ∃ c tail, token.text = c :: tail ∧ Cursor.isBlank c = false := by
  cases token with
  | mark mark => exact ⟨mark.char, [], rfl, by cases mark <;> decide⟩
  | scalar scalar =>
    obtain ⟨begins, c, tail, shape, -⟩ := Scanner.spells_scalar scalar
    exact ⟨c, tail, shape, (begins c tail shape).solid⟩

/-- A token that begins with the character of a mark is that mark. -/
theorem tail_eq_nil {mark : Mark} (shape : token.text = mark.char :: tail) : tail = [] := by
  cases token with
  | mark other => exact (List.cons.inj shape).2.symm
  | scalar scalar =>
    exact absurd rfl (((Scanner.spells_scalar scalar).begins _ _ shape).unlike mark)

end Token

/-- A scalar that begins with a quote is a string. -/
theorem Scalar.exists_spelling {scalar : Scalar} (shape : scalar.text = '"' :: tail) :
    ∃ spelling, scalar = .string spelling ∧ tail = spelling.text ++ ['"'] := by
  match scalar with
  | .null => exact absurd (List.cons.inj shape).1 (by decide)
  | .bool true => exact absurd (List.cons.inj shape).1 (by decide)
  | .bool false => exact absurd (List.cons.inj shape).1 (by decide)
  | .string spelling => exact ⟨spelling, rfl, (List.cons.inj shape).2.symm⟩
  | .number numeral =>
    have shape : numeral.text = '"' :: tail := shape
    rw [Numeral.text] at shape
    split at shape
    · exact absurd (List.cons.inj shape).1 (by decide)
    · cases whole : numeral.whole with
      | nil => exact absurd whole numeral.isWhole.some
      | cons c digits =>
        have digit := numeral.isWhole.digits c (whole ▸ List.mem_cons_self)
        rw [Numeral.unsigned, whole] at shape
        rw [(List.cons.inj shape).1] at digit
        exact absurd digit (by decide)

namespace Machine

/-- A step that takes a token alike wherever it stands. -/
def Uniform (token : Token) (step : Char → Nat → Text → Except Fault (Machine × Cursor)) : Prop :=
  ∃ next, ∀ c tail, token.text = c :: tail → ∀ offset rest, token.Ends rest →
    Leaves (step c offset (tail ++ rest)) next rest

namespace Uniform

variable {token : Token}

theorem error {step : Char → Nat → Text → Except Fault (Machine × Cursor)}
    (refused : ∀ c offset rest, ∃ fault, step c offset rest = .error fault) :
    Uniform token step :=
  ⟨none, fun _ _ _ _ _ _ => refused _ _ _⟩

/-- One step for a mark and another one for all other tokens. -/
theorem ite (mark : Mark) {marked : Nat → Text → Except Fault (Machine × Cursor)}
    {step : Char → Nat → Text → Except Fault (Machine × Cursor)}
    (takes : ∃ next, ∀ offset rest, Leaves (marked offset rest) next rest)
    (other : Uniform token step) :
    Uniform token fun c offset rest =>
      if c = mark.char then marked offset rest else step c offset rest := by
  obtain ⟨c, tail, shape, -⟩ := token.exists_text
  by_cases same : c = mark.char
  · obtain ⟨next, leaves⟩ := takes
    refine ⟨next, fun d more shape' offset rest _ => ?_⟩
    cases shape.symm.trans shape'
    have alone : tail = [] := Token.tail_eq_nil (same ▸ shape)
    simp only [if_pos same, alone, List.nil_append]
    exact leaves offset rest
  · obtain ⟨next, leaves⟩ := other
    refine ⟨next, fun d more shape' offset rest ends => ?_⟩
    cases shape.symm.trans shape'
    simp only [if_neg same]
    exact leaves c tail shape offset rest ends

end Uniform

/-- A scalar is delivered if the shape admits what it stands for. -/
theorem leaves_beginValue (plain : shape.Plain) (frames : List Frame) {scalar : Scalar}
    {rest : Text} (text : scalar.text = c :: tail) (stops : Stops rest) (offset : Nat) :
    Leaves (beginValue [] shape frames c offset (tail ++ rest))
      ((scalar.value?.filter (shape.admits ·)).map (deliver · frames)) rest := by
  obtain ⟨begins, d, more, text', reads⟩ := Scanner.spells_scalar scalar
  cases text.symm.trans text'
  obtain ⟨result, read, leaves⟩ := reads offset rest stops
  have strict : care shape = .strict := by
    cases shape <;> first | rfl | exact plain.elim
  have list : c ≠ '[' := (begins c tail text).unlike .openList
  have brace : c ≠ '\x7b' := (begins c tail text).unlike .openObject
  simp only [beginValue, if_neg list, if_neg brace, strict, read]
  cases value : scalar.value? with
  | none =>
    rw [value] at leaves
    obtain ⟨fault, rfl⟩ := leaves
    exact ⟨fault, rfl⟩
  | some json =>
    rw [value] at leaves
    obtain ⟨offset', rfl⟩ := leaves
    by_cases admitted : shape.admits json = true
    · rw [Option.filter_some, if_pos admitted]
      exact ⟨offset', if_pos admitted⟩
    · rw [Option.filter_some, if_neg admitted]
      exact ⟨_, if_neg admitted⟩

theorem uniform_beginValue (token : Token) (plain : shape.Plain) (frames : List Frame) :
    Uniform token (beginValue [] shape frames) := by
  cases token with
  | scalar scalar =>
    exact ⟨_, fun c tail text offset rest stops => leaves_beginValue plain frames text stops offset⟩
  | mark mark =>
    refine .ite .openList ?_ (.ite .openObject ?_ ?_)
    · cases openList? shape with
      | none => exact ⟨none, fun offset rest => ⟨_, rfl⟩⟩
      | some top =>
        by_cases deep : !top.isSkipped ∧ maxDepth ≤ frames.length + 1
        · exact ⟨none, fun offset rest => ⟨_, if_pos deep⟩⟩
        · exact ⟨some (firstItem top frames), fun offset rest => ⟨_, if_neg deep⟩⟩
    · cases openObject? shape with
      | none => exact ⟨none, fun offset rest => ⟨_, rfl⟩⟩
      | some top =>
        by_cases deep : !top.isSkipped ∧ maxDepth ≤ frames.length + 1
        · exact ⟨none, fun offset rest => ⟨_, if_pos deep⟩⟩
        · exact ⟨some (firstKey top frames), fun offset rest => ⟨_, if_neg deep⟩⟩
    · refine ⟨none, fun c tail text offset rest _ => ?_⟩
      have none : Scanner.scalar? (care shape) [] mark.char offset rest = none := by
        cases mark <;> rfl
      cases text
      simp only [List.nil_append, none]
      exact ⟨_, rfl⟩

/-- A key is a string that stands for something. -/
theorem leaves_beginKey (item : Shape) (done : List (Text × Json)) (frames : List Frame)
    (spelling : Spelling) (offset : Nat) (rest : Text) :
    Leaves (beginKey [] (.members item done) frames '"' offset (spelling.text ++ ['"'] ++ rest))
      (spelling.value?.map (colon (.members item done) · frames)) rest := by
  have leaves := Scanner.leaves_stringFrom spelling (offset + 1) rest
  have strict : (ObjectFrame.members item done).care = .strict := rfl
  rw [List.append_assoc]
  simp only [beginKey, if_true, strict, List.singleton_append]
  cases value : spelling.value? with
  | none =>
    rw [value] at leaves
    obtain ⟨fault, refused⟩ := leaves
    exact ⟨fault, by rw [refused]⟩
  | some key =>
    rw [value] at leaves
    obtain ⟨offset', read⟩ := leaves
    refine ⟨offset', ?_⟩
    rw [read]
    rfl

theorem uniform_beginKey (token : Token) (item : Shape) (done : List (Text × Json))
    (frames : List Frame) : Uniform token (beginKey [] (.members item done) frames) := by
  obtain ⟨c, tail, text, -⟩ := token.exists_text
  by_cases quote : c = '"'
  · subst quote
    cases token with
    | mark mark =>
      have same : mark.char = '"' := (List.cons.inj text).1
      cases mark <;> exact absurd same (by decide)
    | scalar scalar =>
      obtain ⟨spelling, -, rfl⟩ := Scalar.exists_spelling text
      refine ⟨spelling.value?.map (colon (.members item done) · frames),
        fun d more shape offset rest _ => ?_⟩
      cases text.symm.trans shape
      exact leaves_beginKey item done frames spelling offset rest
  · refine ⟨none, fun d more shape offset rest _ => ?_⟩
    cases text.symm.trans shape
    exact ⟨_, if_neg quote⟩

/-- A machine with open containers takes every token alike wherever it stands. -/
theorem uniform_step (sound : machine.Sound) (token : Token) : Uniform token (machine.step []) := by
  have goes (next : Machine) : ∃ result, ∀ (offset : Nat) (rest : Text),
      Leaves (.ok (next, ⟨offset + 1, rest⟩)) result rest :=
    ⟨some next, fun offset rest => ⟨offset + 1, rfl⟩⟩
  have fails (cause : Cause) : ∃ result : Option Machine, ∀ (offset : Nat) (rest : Text),
      Leaves (.error ⟨cause, offset + 1⟩) result rest :=
    ⟨none, fun offset rest => ⟨_, rfl⟩⟩
  cases machine with
  | expectValue shape frames => exact uniform_beginValue token sound.1 frames
  | firstItem top frames =>
    cases sound with
    | item plain => exact .ite .closeList (goes _) (uniform_beginValue token plain _)
  | itemEnd top frames =>
    cases sound with
    | item plain =>
      exact .ite .closeList (goes _) (.ite .comma (goes _) (.error fun _ _ _ => ⟨_, rfl⟩))
  | nextItem top frames =>
    cases sound with
    | item plain =>
      simp only [Uniform, step, ListFrame.isSkipped, Bool.not_false, and_true]
      exact Uniform.ite .closeList (fails _) (uniform_beginValue token plain _)
  | extraItem => exact sound.elim
  | firstKey top frames =>
    cases sound with
    | member plain => exact .ite .closeObject (goes _) (uniform_beginKey token _ _ frames)
  | nextKey top frames =>
    cases sound with
    | member plain =>
      simp only [Uniform, step, ObjectFrame.isSkipped, Bool.not_false, and_true]
      exact Uniform.ite .closeObject (fails _) (uniform_beginKey token _ _ frames)
  | colon top key frames => exact .ite .colon (goes _) (.error fun _ _ _ => ⟨_, rfl⟩)
  | memberEnd top frames =>
    cases sound with
    | member plain =>
      exact .ite .closeObject (goes _) (.ite .comma (goes _) (.error fun _ _ _ => ⟨_, rfl⟩))
  | finished value => exact .error fun _ _ _ => ⟨_, rfl⟩

/-- A run depends on what follows the blanks. -/
theorem run_eq (machine : Machine) (cursor : Cursor) :
    run [] machine cursor =
      match cursor.skipBlanks.rest with
      | [] => machine.atEnd cursor.skipBlanks.offset
      | c :: rest =>
        match machine.step [] c cursor.skipBlanks.offset rest with
        | .error e => .error e
        | .ok (next, after) => run [] next after := by
  rw [run]
  split
  · next ends => simp only [Cursor.skipBlanks, ends]
  · next found =>
    split
    · next failed =>
      simp only [Cursor.skipBlanks, found] at failed ⊢
      rw [failed]
    · next taken =>
      simp only [Cursor.skipBlanks, found] at taken ⊢
      rw [taken]

/-- A run begins with a step where no blank stands. -/
theorem run_cons (machine : Machine) (solid : Cursor.isBlank c = false) (offset : Nat) (rest : Text)
    :
    run [] machine ⟨offset, c :: rest⟩ =
      match machine.step [] c offset rest with
      | .error e => .error e
      | .ok (next, after) => run [] next after := by
  have stays : Cursor.skipBlanks ⟨offset, c :: rest⟩ = ⟨offset, c :: rest⟩ := by
    simp [Cursor.skipBlanks, solid]
  rw [run_eq, stays]

theorem run_blanks (machine : Machine) {blanks : Text}
    (each : ∀ c ∈ blanks, Cursor.isBlank c = true) (offset : Nat) (rest : Text) :
    run [] machine ⟨offset, blanks ++ rest⟩ =
      run [] machine ⟨offset + blanks.length, rest⟩ := by
  have skips : Cursor.skipBlanks ⟨offset, blanks ++ rest⟩ =
      Cursor.skipBlanks ⟨offset + blanks.length, rest⟩ := by
    simp only [Cursor.skipBlanks, takeWhile_append_of_pos each,
      dropWhile_append_of_pos each, length_append]
    rw [Nat.add_assoc]
  rw [run_eq, run_eq machine ⟨offset + blanks.length, rest⟩, skips]

/-- Blanks end a text. -/
theorem run_end (machine : Machine) {blanks : Text}
    (each : ∀ c ∈ blanks, Cursor.isBlank c = true) (offset : Nat) :
    run [] machine ⟨offset, blanks⟩ = machine.atEnd (offset + blanks.length) := by
  have skips : run [] machine ⟨offset, blanks ++ []⟩ = _ := run_blanks machine each offset []
  rw [append_nil] at skips
  rw [skips, run_eq]
  rfl

/-- The machine after a token, unless the token is refused. -/
def take (machine : Machine) (token : Token) : Option Machine :=
  match token.text with
  | [] => none
  | c :: tail => (machine.step [] c 0 tail).toOption.map Prod.fst

/-- The machine after some tokens. -/
def takeAll : Machine → List Token → Option Machine
  | machine, [] => some machine
  | machine, token :: tokens => (machine.take token).bind fun next => takeAll next tokens

/-- What a machine has read when its text ends. -/
def result? (machine : Machine) : Option Json := (machine.atEnd 0).toOption

theorem leaves_step (sound : machine.Sound) {rest : Text} (shape : token.text = c :: tail)
    (ends : token.Ends rest) (offset : Nat) :
    Leaves (machine.step [] c offset (tail ++ rest)) (machine.take token) rest := by
  obtain ⟨next, leaves⟩ := uniform_step sound token
  have alone : token.Ends [] := by
    cases token with
    | mark mark => trivial
    | scalar scalar => exact fun c none => absurd none (by simp)
  have first := (leaves c tail shape 0 [] alone).toOption_eq
  rw [append_nil] at first
  rw [take, shape]
  simp only [first]
  exact leaves c tail shape offset rest ends

theorem sound_take {next : Machine} (sound : machine.Sound) (taken : machine.take token = some next)
    : next.Sound := by
  unfold take at taken
  split at taken
  · cases taken
  · obtain ⟨found, read, rfl⟩ := Option.map_eq_some_iff.mp taken
    cases step : machine.step [] _ 0 _ with
    | error fault =>
      rw [step] at read
      cases read
    | ok after =>
      rw [step] at read
      cases read
      exact sound_step sound step

theorem toOption_atEnd (machine : Machine) (offset : Nat) :
    (machine.atEnd offset).toOption = machine.result? := by
  cases machine <;> rfl

/-- Tokens that need no blank between them. -/
def Apart (tokens : List Token) : Prop :=
  tokens.IsChain fun a b => a.isMark = true ∨ b.isMark = true

theorem stops_of_isGap (blank : IsGap gap) : Stops gap := by
  intro c here
  have blank := blank c (mem_of_mem_head? here)
  simp only [Cursor.isBlank, Bool.or_eq_true, beq_iff_eq] at blank
  rcases blank with ((rfl | rfl) | rfl) | rfl <;> decide

theorem stops_of_spread (spread : Spread tokens text)
    (starts : ∀ token ∈ tokens.head?, token.isMark = true) (blank : IsGap gap) :
    Stops (text ++ gap) := by
  cases spread with
  | nil => exact stops_of_isGap blank
  | @cons front text tokens before token rest =>
    cases front with
    | cons c front =>
      have first := stops_of_isGap before
      exact fun d here => first d here
    | nil =>
      cases token with
      | scalar scalar => exact absurd (starts _ rfl) Bool.false_ne_true
      | mark mark =>
        rintro c ⟨⟩
        cases mark <;> decide

/-- A run over a text is a run over its tokens. -/
theorem toOption_run (spread : Spread tokens text) (apart : Apart tokens) (blank : IsGap gap)
    (sound : machine.Sound) (offset : Nat) :
    (run [] machine ⟨offset, text ++ gap⟩).toOption =
      (machine.takeAll tokens).bind result? := by
  induction spread generalizing machine offset with
  | nil =>
    rw [nil_append, run_end machine blank, toOption_atEnd]
    rfl
  | @cons front text tokens before token rest ih =>
    obtain ⟨c, tail, shape, solid⟩ := token.exists_text
    have ends : token.Ends (text ++ gap) := by
      cases token with
      | mark mark => trivial
      | scalar scalar =>
        have next := (isChain_cons.mp apart).1
        exact stops_of_spread rest (fun token here => (next token here).resolve_left (by
          exact Bool.false_ne_true)) blank
    have leaves := leaves_step sound shape ends (offset + front.length)
    rw [append_assoc, run_blanks machine before, append_assoc, shape, cons_append,
      run_cons machine solid, takeAll]
    cases taken : machine.take token with
    | none =>
      rw [taken] at leaves
      obtain ⟨fault, refused⟩ := leaves
      rw [refused]
      rfl
    | some next =>
      rw [taken] at leaves
      obtain ⟨offset', step⟩ := leaves
      rw [step]
      exact ih apart.tail (sound_take sound taken) offset'

end Machine

/-- A document is read from its tokens. -/
theorem toOption_read (spread : Spread tokens text) (apart : Machine.Apart tokens)
    (blank : IsGap gap) (plain : shape.Plain) :
    (read shape (text ++ gap)).toOption =
      ((Machine.expectValue shape []).takeAll tokens).bind Machine.result? := by
  have start : (Machine.expectValue shape []).Sound := ⟨plain, .nil⟩
  rw [← Machine.toOption_run spread apart blank start 0, read, readMarked, Cursor.start]
  cases Machine.run [] (.expectValue shape []) ⟨0, text ++ gap⟩ <;> rfl

end ComponentPack.Json
