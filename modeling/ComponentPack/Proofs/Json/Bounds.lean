import ComponentPack.Json.Reader
import ComponentPack.Proofs.Dictionary

/-!
What the reader returns is bounded: integers have 64 bits, containers nest less deep than the
machine allows, and the keys of an object ascend. The invariant holds of the open containers after
every step, and so of the value at the end of a run.
-/

set_option autoImplicit false

namespace ComponentPack.Json

variable {level offset : Nat} {negative : Bool} {n : Number} {after : Scanner.Cursor}
  {broken : List Nat} {c : Char} {rest key : Text} {value : Json} {top : ObjectFrame}
  {frames : List Frame} {shape : Shape} {next : Machine}

/-- The value can stand inside `level` containers of a document. -/
inductive Fits : Nat → Json → Prop
  | null {level : Nat} : Fits level .null
  | bool {level : Nat} (value : Bool) : Fits level (.bool value)
  | integer {level : Nat} {i : Int} (low : -2 ^ (63 : Nat) ≤ i)
    (high : i ≤ Scanner.maxSignificand) : Fits level (.number (.integer i))
  | float {level : Nat} (x : Binary64) : Fits level (.number (.float x))
  | string {level : Nat} (text : Text) : Fits level (.string text)
  | array {level : Nat} {items : List Json} (room : level + 1 < Machine.maxDepth)
    (inner : ∀ item ∈ items, Fits (level + 1) item) : Fits level (.array items)
  | object {level : Nat} {members : List (Text × Json)} (room : level + 1 < Machine.maxDepth)
    (ascending : members.Pairwise fun a b => a.1 < b.1)
    (inner : ∀ entry ∈ members, Fits (level + 1) entry.2) : Fits level (.object members)

/-- Members in any order make an object. -/
theorem Fits.ofMembers {members : List (Text × Json)} (room : level + 1 < Machine.maxDepth)
    (inner : ∀ entry ∈ members, Fits (level + 1) entry.2) : Fits level (.ofMembers members) :=
  .object room (Dictionary.ofList members).ascending fun entry member =>
    inner entry (Dictionary.mem_of_mem_ofList member)

namespace Scanner

theorem significand_le {start : Nat} (small : start ≤ maxSignificand) (digits : Text) :
    (significand start digits).1 ≤ maxSignificand := by
  induction digits generalizing start with
  | nil => exact small
  | cons c digits ih =>
    simp only [significand]
    split
    · exact small
    · next fits => exact ih (Nat.not_lt.mp fits)

theorem scaled_le (parts : NumberParts) : parts.scaled.1 ≤ maxSignificand := by
  have whole := significand_le (Nat.zero_le _) parts.whole
  simp only [NumberParts.scaled]
  cases parts.fraction with
  | none => exact whole
  | some fraction => exact significand_le whole fraction

theorem fits_of_float {digits : Nat} {exponent : Int}
    (read : NumberParts.float negative offset digits exponent = .ok n) :
    Fits level (.number n) := by
  unfold NumberParts.float at read
  split at read
  · cases read
    exact .float _
  · cases read

theorem fits_of_value {parts : NumberParts} (read : parts.value negative offset = .ok n) :
    Fits level (.number n) := by
  have small := scaled_le parts
  simp only [NumberParts.value] at read
  split at read
  · split at read
    · exact fits_of_float read
    · split at read
      · cases read
        exact .float _
      · cases read
  · split at read
    · split at read
      · next i known =>
        cases read
        unfold integer? at known
        split at known
        · cases known
          exact .integer (by omega) (by omega)
        · split at known
          · next bounds =>
            cases known
            exact .integer (by omega) (by omega)
          · cases known
      · exact fits_of_float read
    · exact fits_of_float read

theorem fits_of_number {care : Care} {cursor after : Cursor}
    (read : number care negative cursor = .ok (n, after)) : Fits level (.number n) := by
  unfold number at read
  split at read
  · cases read
  · split at read
    · cases read
      exact .integer (by decide) (by decide)
    · split at read
      · cases read
      · next known =>
        cases read
        exact fits_of_value known

theorem exists_of_map_eq_ok {α β : Type} {f : α → β} {result : Except Fault α} {b : β}
    (mapped : result.map f = .ok b) : ∃ a, result = .ok a ∧ f a = b := by
  cases result with
  | error e => cases mapped
  | ok a => exact ⟨a, rfl, Except.ok.inj mapped⟩

theorem fits_of_scalar? {care : Care} {after : Cursor}
    (read : scalar? care broken c offset rest = some (.ok (value, after))) : Fits level value := by
  simp only [scalar?] at read
  split at read
  · obtain ⟨cursor, -, same⟩ := exists_of_map_eq_ok (Option.some.inj read)
    cases same
    exact .null
  split at read
  · obtain ⟨cursor, -, same⟩ := exists_of_map_eq_ok (Option.some.inj read)
    cases same
    exact .bool true
  split at read
  · obtain ⟨cursor, -, same⟩ := exists_of_map_eq_ok (Option.some.inj read)
    cases same
    exact .bool false
  split at read
  · obtain ⟨found, known, same⟩ := exists_of_map_eq_ok (Option.some.inj read)
    cases same
    exact fits_of_number known
  split at read
  · obtain ⟨found, known, same⟩ := exists_of_map_eq_ok (Option.some.inj read)
    cases same
    exact fits_of_number known
  split at read
  · obtain ⟨found, -, same⟩ := exists_of_map_eq_ok (Option.some.inj read)
    cases same
    exact .string _
  · cases read

end Scanner

/-- Values of the shape are kept as they are read. -/
def Shape.Plain : Shape → Prop
  | any => True
  | map item | list item => item.Plain
  | _ => False

namespace Machine

/-- Open containers with room for the values that they hold so far. -/
inductive Open : List Frame → Prop
  | nil : Open []
  | item {shape : Shape} {done : List Json} {frames : List Frame} (plain : shape.Plain)
    (room : frames.length + 1 < maxDepth) (inner : ∀ value ∈ done, Fits (frames.length + 1) value)
    (outer : Open frames) : Open (.item (.items shape done) :: frames)
  | member {shape : Shape} {done : List (Text × Json)} {key : Text} {frames : List Frame}
    (plain : shape.Plain) (room : frames.length + 1 < maxDepth)
    (inner : ∀ entry ∈ done, Fits (frames.length + 1) entry.2) (outer : Open frames) :
    Open (.member (.members shape done) key :: frames)

/-- The containers of a machine are open, and what it has finished fits. -/
def Sound : Machine → Prop
  | expectValue shape frames => shape.Plain ∧ Open frames
  | firstItem top frames | itemEnd top frames | nextItem top frames => Open (.item top :: frames)
  | extraItem => False
  | firstKey top frames | nextKey top frames | memberEnd top frames =>
    Open (.member top [] :: frames)
  | colon top key frames => Open (.member top key :: frames)
  | finished value => Fits 0 value

theorem Open.anyKey (opened : Open (.member top key :: frames)) (other : Text) :
    Open (.member top other :: frames) := by
  cases opened with
  | member plain room inner outer => exact .member plain room inner outer

theorem sound_deliver (opened : Open frames) (fits : Fits frames.length value) :
    Sound (deliver value frames) := by
  cases opened with
  | nil => exact fits
  | item plain room inner outer =>
    exact .item plain room (List.forall_mem_cons.mpr ⟨fits, inner⟩) outer
  | member plain room inner outer =>
    exact .member plain room (List.forall_mem_cons.mpr ⟨fits, inner⟩) outer

theorem openList?_eq_some (plain : shape.Plain) {top : ListFrame}
    (opens : openList? shape = some top) : ∃ item, item.Plain ∧ top = .items item [] := by
  cases shape with
  | any => exact ⟨.any, plain, (Option.some.inj opens).symm⟩
  | list item => exact ⟨item, plain, (Option.some.inj opens).symm⟩
  | map item => exact absurd opens (by simp [openList?])
  | skipped | text | optionalText | record => exact plain.elim

theorem openObject?_eq_some (plain : shape.Plain) (opens : openObject? shape = some top) :
    ∃ item, item.Plain ∧ top = .members item [] := by
  cases shape with
  | any => exact ⟨.any, plain, (Option.some.inj opens).symm⟩
  | map item => exact ⟨item, plain, (Option.some.inj opens).symm⟩
  | list item => exact absurd opens (by simp [openObject?])
  | skipped | text | optionalText | record => exact plain.elim

theorem sound_beginValue (plain : shape.Plain) (opened : Open frames)
    (taken : beginValue broken shape frames c offset rest = .ok (next, after)) : Sound next := by
  unfold beginValue at taken
  split at taken
  · split at taken
    · cases taken
    · next top opens =>
      obtain ⟨item, kept, rfl⟩ := openList?_eq_some plain opens
      split at taken
      · cases taken
      · next room =>
        cases taken
        have room : frames.length + 1 < maxDepth := by simpa [ListFrame.isSkipped] using room
        exact .item kept room (fun value none => absurd none List.not_mem_nil) opened
  · split at taken
    · split at taken
      · cases taken
      · next top opens =>
        obtain ⟨item, kept, rfl⟩ := openObject?_eq_some plain opens
        split at taken
        · cases taken
        · next room =>
          cases taken
          have room : frames.length + 1 < maxDepth := by simpa [ObjectFrame.isSkipped] using room
          exact .member kept room (fun value none => absurd none List.not_mem_nil) opened
    · split at taken
      · cases taken
      · cases taken
      · next read =>
        split at taken
        · cases taken
          exact sound_deliver opened (Scanner.fits_of_scalar? read)
        · cases taken

theorem sound_endList {top : ListFrame} (opened : Open (.item top :: frames))
    (taken : endList top frames offset rest = .ok (next, after)) : Sound next := by
  cases opened with
  | item plain room inner outer =>
    cases taken
    exact sound_deliver outer
      (.array room fun value member => inner value (List.mem_reverse.mp member))

theorem sound_endObject (opened : Open (.member top key :: frames))
    (taken : endObject top frames offset rest = .ok (next, after)) : Sound next := by
  cases opened with
  | member plain room inner outer =>
    cases taken
    exact sound_deliver outer
      (.ofMembers room fun entry member => inner entry (List.mem_reverse.mp member))

theorem sound_beginKey (opened : Open (.member top [] :: frames))
    (taken : beginKey broken top frames c offset rest = .ok (next, after)) : Sound next := by
  unfold beginKey at taken
  split at taken
  · split at taken
    · cases taken
    · split at taken
      · cases taken
      · cases taken
        exact opened.anyKey _
  · cases taken

theorem Open.shape_plain {top : ListFrame} (opened : Open (.item top :: frames)) :
    top.shape.Plain ∧ top.isFull = false := by
  cases opened with
  | item plain room inner outer => exact ⟨plain, rfl⟩

theorem Open.shapeOf_plain (opened : Open (.member top key :: frames)) :
    (top.shapeOf key).Plain := by
  cases opened with
  | member plain room inner outer => exact plain

/-- Every token keeps the invariant. -/
theorem sound_step {machine : Machine} (sound : machine.Sound)
    (taken : step broken machine c offset rest = .ok (next, after)) : Sound next := by
  cases machine with
  | expectValue shape frames => exact sound_beginValue sound.1 sound.2 taken
  | firstItem top frames =>
    simp only [step] at taken
    split at taken
    · exact sound_endList sound taken
    · exact sound_beginValue (Open.shape_plain sound).1 sound taken
  | itemEnd top frames =>
    simp only [step, (Open.shape_plain sound).2] at taken
    split at taken
    · exact sound_endList sound taken
    · simp only [Bool.false_eq_true, if_false] at taken
      split at taken
      · cases taken
        exact sound
      · cases taken
  | nextItem top frames =>
    simp only [step] at taken
    split at taken
    · cases taken
    · exact sound_beginValue (Open.shape_plain sound).1 sound taken
  | extraItem => exact sound.elim
  | firstKey top frames =>
    simp only [step] at taken
    split at taken
    · exact sound_endObject sound taken
    · exact sound_beginKey sound taken
  | nextKey top frames =>
    simp only [step] at taken
    split at taken
    · cases taken
    · exact sound_beginKey sound taken
  | colon top key frames =>
    simp only [step] at taken
    split at taken
    · cases taken
      exact ⟨Open.shapeOf_plain sound, sound⟩
    · cases taken
  | memberEnd top frames =>
    simp only [step] at taken
    split at taken
    · exact sound_endObject sound taken
    · split at taken
      · cases taken
        exact sound
      · cases taken
  | finished value => cases taken

/-- What a run returns fits. -/
theorem fits_of_run {machine : Machine} {cursor : Scanner.Cursor} (sound : machine.Sound)
    (done : run broken machine cursor = .ok value) : Fits 0 value := by
  fun_induction run broken machine cursor with
  | case1 machine cursor ends =>
    cases machine <;> cases done
    exact sound
  | case2 machine cursor c rest some e failed => cases done
  | case3 machine cursor c rest some next after taken shorter ih =>
    exact ih (sound_step sound taken) done

end Machine

theorem fits_of_read (plain : shape.Plain) {text : Text} (done : read shape text = .ok value) :
    Fits 0 value := by
  unfold read readMarked at done
  split at done
  · next run =>
    cases done
    have start : (Machine.expectValue shape []).Sound := ⟨plain, .nil⟩
    exact Machine.fits_of_run start run
  · cases done

end ComponentPack.Json
