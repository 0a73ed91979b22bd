import ComponentPack.Proofs.Json.Tokens

/-!
Documents are read for what they stand for (`Source.toOption_read`). The reader is a machine over
characters; `Source.value?` says by recursion on the document what it returns, for every document
and every way to lay it out, those that it refuses among them.
-/

set_option autoImplicit false

namespace ComponentPack.Json

open Option

variable {machine : Machine} {shape item : Shape}

namespace Shape

/-- The shape of the items of an array. -/
def item? : Shape → Option Shape
  | any => some any
  | list item => some item
  | _ => none

/-- The shape of the values of an object. -/
def member? : Shape → Option Shape
  | any => some any
  | map item => some item
  | _ => none

end Shape

namespace Source

mutual

/-- What a document stands for inside `level` containers, if it has the shape. -/
def value? (shape : Shape) (level : Nat) : Source → Option Json
  | scalar s => s.value?.filter (shape.admits ·)
  | array items =>
    if level + 1 < Machine.maxDepth then
      shape.item?.bind fun item => (values? item (level + 1) items).map .array
    else none
  | object members =>
    if level + 1 < Machine.maxDepth then
      shape.member?.bind fun item => (pairs? item (level + 1) members).map .ofMembers
    else none

def values? (shape : Shape) (level : Nat) : List Source → Option (List Json)
  | [] => some []
  | item :: items =>
    (value? shape level item).bind fun value => (values? shape level items).map (value :: ·)

def pairs? (shape : Shape) (level : Nat) :
    List (Spelling × Source) → Option (List (Text × Json))
  | [] => some []
  | (key, source) :: members =>
    (key.value?.bind fun key => (value? shape level source).map (key, ·)).bind fun entry =>
      (pairs? shape level members).map (entry :: ·)

end

/-- What a member stands for. -/
def pair? (shape : Shape) (level : Nat) (entry : Spelling × Source) : Option (Text × Json) :=
  entry.1.value?.bind fun key => (entry.2.value? shape level).map (key, ·)

theorem values?_eq (shape : Shape) (level : Nat) (items : List Source) :
    values? shape level items = items.mapM (value? shape level) := by
  induction items with
  | nil => rfl
  | cons item items ih =>
    rw [values?, ih, List.mapM_cons]
    cases value? shape level item <;> cases items.mapM (value? shape level) <;> rfl

theorem pairs?_eq (shape : Shape) (level : Nat) (members : List (Spelling × Source)) :
    pairs? shape level members = members.mapM (pair? shape level) := by
  induction members with
  | nil => rfl
  | cons entry members ih =>
    rw [pairs?, ih, List.mapM_cons, ← pair?]
    cases pair? shape level entry <;> cases members.mapM (pair? shape level) <;> rfl

/-- The tokens of a member. -/
def memberRow (entry : Spelling × Source) : List Token :=
  .scalar (.string entry.1) :: .mark .colon :: entry.2.tokens

theorem itemTokens_eq (items : List Source) : itemTokens items = items.map tokens := by
  induction items with
  | nil => rfl
  | cons item items ih => rw [itemTokens, ih, List.map_cons]

theorem memberTokens_eq (members : List (Spelling × Source)) :
    memberTokens members = members.map memberRow := by
  induction members with
  | nil => rfl
  | cons entry members ih => rw [memberTokens, ih, List.map_cons, memberRow]

open Machine (Apart)

theorem apart_mark {tokens : List Token} (mark : Mark) (apart : Apart tokens) :
    Apart (.mark mark :: tokens) :=
  List.isChain_cons.mpr ⟨fun _ _ => .inl rfl, apart⟩

theorem apart_append_mark {before after : List Token} {mark : Mark} (left : Apart before)
    (right : Apart after) : Apart (before ++ .mark mark :: after) := by
  refine List.IsChain.append left (apart_mark mark right) ?_
  rintro a - b ⟨⟩
  exact .inr rfl

theorem apart_intercalate {rows : List (List Token)} (each : ∀ row ∈ rows, Apart row) :
    Apart (List.intercalate [.mark .comma] rows) := by
  induction rows with
  | nil => exact .nil
  | cons row rows ih =>
    obtain ⟨here, later⟩ := List.forall_mem_cons.mp each
    cases rows with
    | nil => simpa [List.intercalate] using here
    | cons next rows =>
      rw [List.intercalate_cons_cons, List.append_assoc, List.singleton_append]
      exact apart_append_mark here (ih later)

/-- No two scalars follow one another in a document. -/
theorem apart_tokens (source : Source) : Apart source.tokens := by
  induction source using Source.induct with
  | scalar s => exact .singleton _
  | array items ih =>
    rw [tokens, itemTokens_eq]
    refine apart_mark _ (apart_append_mark (apart_intercalate fun row member => ?_) .nil)
    obtain ⟨item, inside, rfl⟩ := List.mem_map.mp member
    exact ih item inside
  | object members ih =>
    rw [tokens, memberTokens_eq]
    refine apart_mark _ (apart_append_mark (apart_intercalate fun row member => ?_) .nil)
    obtain ⟨entry, inside, rfl⟩ := List.mem_map.mp member
    have key : Apart [.scalar (.string entry.1)] := .singleton _
    exact apart_append_mark key (ih entry inside)

end Source

theorem intercalate_cons_eq {α : Type} (separator part : List α) (parts : List (List α)) :
    List.intercalate separator (part :: parts) = part ++ parts.flatMap (separator ++ ·) := by
  induction parts generalizing part with
  | nil => simp [List.intercalate]
  | cons next parts ih =>
    rw [List.intercalate_cons_cons, ih, List.flatMap_cons]
    simp only [List.append_assoc]

/-- The states of a machine inside a container with entries of some type. -/
structure Loop (α : Type) where
  /-- After the opening bracket. -/
  first : Machine
  /-- After a comma, with the entries so far, the last one first. -/
  next : List α → Machine
  /-- After an entry, with the entries so far, the last one first. -/
  after : List α → Machine
  /-- After the closing bracket. -/
  result : List α → Machine
  closing : Mark
  none : ∀ offset rest, first.step [] closing.char offset rest = .ok (result [], ⟨offset + 1, rest⟩)
  comma : ∀ done offset rest,
    (after done).step [] ',' offset rest = .ok (next done, ⟨offset + 1, rest⟩)
  ends : ∀ done offset rest,
    (after done).step [] closing.char offset rest =
      .ok (result done.reverse, ⟨offset + 1, rest⟩)

namespace Loop

open Machine

variable {α ε : Type} {loop : Loop α} {row : ε → List Token}
  {value : ε → Option α} {entries : List ε}

/-- The tokens are taken for the value, if there is one, wherever an entry may begin. -/
structure Admits (loop : Loop α) (tokens : List Token) (value : Option α) : Prop where
  first : ∀ rest, loop.first.takeAll (tokens ++ rest) =
    value.bind fun entry => (loop.after [entry]).takeAll rest
  next : ∀ done rest, (loop.next done).takeAll (tokens ++ rest) =
    value.bind fun entry => (loop.after (entry :: done)).takeAll rest

theorem take_of_step {next : Machine} {mark : Mark} {after : Scanner.Cursor}
    (taken : machine.step [] mark.char 0 [] = .ok (next, after)) :
    machine.take (.mark mark) = some next := by
  simp only [take, Token.text, taken]
  rfl

theorem takeAll_further
    (each : ∀ entry ∈ entries, loop.Admits (row entry) (value entry)) (done : List α)
    (rest : List Token) :
    (loop.after done).takeAll
        (entries.flatMap (fun entry => .mark .comma :: row entry) ++ .mark loop.closing :: rest) =
      (entries.mapM value).bind fun values =>
        (loop.result (done.reverse ++ values)).takeAll rest := by
  induction entries generalizing done with
  | nil =>
    have ends := take_of_step (loop.ends done 0 [])
    rw [List.flatMap_nil, List.nil_append, takeAll, ends, List.mapM_nil]
    simp
  | cons entry entries ih =>
    obtain ⟨here, later⟩ := List.forall_mem_cons.mp each
    have comma : (loop.after done).take (.mark .comma) = some (loop.next done) :=
      take_of_step (loop.comma done 0 [])
    rw [List.flatMap_cons, List.append_assoc, List.cons_append, takeAll, comma, bind_some,
      here.next, List.mapM_cons]
    cases value entry with
    | none => rfl
    | some a =>
      rw [bind_some, ih later (a :: done)]
      cases entries.mapM value <;> simp

/-- A container is taken for its entries, if there are such. -/
theorem takeAll_rows
    (each : ∀ entry ∈ entries, loop.Admits (row entry) (value entry)) (rest : List Token) :
    loop.first.takeAll
        (List.intercalate [.mark .comma] (entries.map row) ++ .mark loop.closing :: rest) =
      (entries.mapM value).bind fun values => (loop.result values).takeAll rest := by
  cases entries with
  | nil =>
    have ends := take_of_step (loop.none 0 [])
    rw [List.map_nil, List.intercalate_nil, List.nil_append, takeAll, ends, List.mapM_nil]
    simp
  | cons entry entries =>
    obtain ⟨here, later⟩ := List.forall_mem_cons.mp each
    rw [List.map_cons, intercalate_cons_eq, List.append_assoc, here.first, List.flatMap_map,
      List.mapM_cons]
    cases value entry with
    | none => rfl
    | some a =>
      rw [bind_some]
      refine (takeAll_further later [a] rest).trans ?_
      cases entries.mapM value <;> simp

end Loop

namespace Machine

theorem take_scalar (plain : shape.Plain) (frames : List Frame) (scalar : Scalar) :
    (expectValue shape frames).take (.scalar scalar) =
      (scalar.value?.filter (shape.admits ·)).map (deliver · frames) := by
  obtain ⟨-, c, tail, text, -⟩ := Scanner.spells_scalar scalar
  have alone : Scanner.Stops [] := fun c none => absurd none (by simp)
  have leaves := leaves_beginValue plain frames text alone 0
  rw [List.append_nil] at leaves
  simp only [take, Token.text, text, step]
  exact leaves.toOption_eq

/-- A machine that waits for a key takes a string. -/
theorem take_key {done : List (Text × Json)} {frames : List Frame}
    (waits : ∀ offset rest, machine.step [] '"' offset rest =
      beginKey [] (.members item done) frames '"' offset rest) (spelling : Spelling) :
    machine.take (.scalar (.string spelling)) =
      spelling.value?.map (colon (.members item done) · frames) := by
  have leaves := leaves_beginKey item done frames spelling 0 []
  rw [List.append_nil] at leaves
  simp only [take, Token.text, Scalar.text, waits]
  exact leaves.toOption_eq

theorem take_openList (plain : shape.Plain) (frames : List Frame) :
    (expectValue shape frames).take (.mark .openList) =
      if frames.length + 1 < maxDepth then
        shape.item?.map fun item => firstItem (.items item []) frames
      else none := by
  have opens : openList? shape = shape.item?.map (.items · []) := by
    cases shape <;> first | rfl | exact plain.elim
  simp only [take, Token.text, Mark.char, step, beginValue, if_true, opens]
  cases shape.item? with
  | none => simp [Except.toOption]
  | some item =>
    by_cases room : frames.length + 1 < maxDepth
    · simp [room, Except.toOption, Nat.not_le.mpr room]
    · simp [room, Except.toOption, Nat.not_lt.mp room, ListFrame.isSkipped]

theorem take_openObject (plain : shape.Plain) (frames : List Frame) :
    (expectValue shape frames).take (.mark .openObject) =
      if frames.length + 1 < maxDepth then
        shape.member?.map fun item => firstKey (.members item []) frames
      else none := by
  have opens : openObject? shape = shape.member?.map (.members · []) := by
    cases shape <;> first | rfl | exact plain.elim
  have other : '\x7b' ≠ '[' := by decide
  simp only [take, Token.text, Mark.char, step, beginValue, if_neg other, if_true, opens]
  cases shape.member? with
  | none => simp [Except.toOption]
  | some item =>
    by_cases room : frames.length + 1 < maxDepth
    · simp [room, Except.toOption, Nat.not_le.mpr room]
    · simp [room, Except.toOption, Nat.not_lt.mp room, ObjectFrame.isSkipped]

/-- Two machines that take all tokens but the end of an array alike take a document alike. -/
theorem takeAll_congr {machine other : Machine}
    (same : ∀ c offset rest, c ≠ ']' → machine.step [] c offset rest = other.step [] c offset rest)
    (source : Source) (rest : List Token) :
    machine.takeAll (source.tokens ++ rest) = other.takeAll (source.tokens ++ rest) := by
  have begins : ∃ token tokens, source.tokens = token :: tokens ∧
      ∀ c tail, token.text = c :: tail → c ≠ ']' := by
    cases source with
    | scalar s =>
      exact ⟨_, _, rfl, fun c tail text =>
        ((Scanner.spells_scalar s).begins c tail text).unlike .closeList⟩
    | array items =>
      refine ⟨_, _, rfl, ?_⟩
      rintro c tail ⟨⟩
      decide
    | object members =>
      refine ⟨_, _, rfl, ?_⟩
      rintro c tail ⟨⟩
      decide
  obtain ⟨token, tokens, first, begins⟩ := begins
  obtain ⟨c, tail, text, -⟩ := token.exists_text
  have take : machine.take token = other.take token := by
    simp only [Machine.take, text, same c 0 tail (begins c tail text)]
  rw [first, List.cons_append, takeAll, takeAll, take]

end Machine

namespace Source

open Machine

/-- The document is taken for what it stands for. -/
def Taken (source : Source) : Prop :=
  ∀ {shape : Shape}, shape.Plain → ∀ (frames : List Frame) (rest : List Token),
    (expectValue shape frames).takeAll (source.tokens ++ rest) =
      (source.value? shape frames.length).bind fun value => (deliver value frames).takeAll rest

/-- The loop through the items of an array. -/
def itemLoop (item : Shape) (frames : List Frame) : Loop Json where
  first := firstItem (.items item []) frames
  next done := nextItem (.items item done) frames
  after done := itemEnd (.items item done) frames
  result values := deliver (.array values) frames
  closing := .closeList
  none _ _ := rfl
  comma _ _ _ := rfl
  ends _ _ _ := rfl

/-- The loop through the members of an object. -/
def memberLoop (item : Shape) (frames : List Frame) : Loop (Text × Json) where
  first := firstKey (.members item []) frames
  next done := nextKey (.members item done) frames
  after done := memberEnd (.members item done) frames
  result members := deliver (.ofMembers members) frames
  closing := .closeObject
  none _ _ := rfl
  comma _ _ _ := rfl
  ends _ _ _ := rfl

theorem admits_item {source : Source} (taken : source.Taken) {item : Shape} (plain : item.Plain)
    (frames : List Frame) :
    (itemLoop item frames).Admits source.tokens
      (source.value? item (frames.length + 1)) where
  first rest := by
    refine (takeAll_congr (fun c offset rest other => ?_) source rest).trans
      (taken plain (.item (.items item []) :: frames) rest)
    exact if_neg other
  next done rest := by
    refine (takeAll_congr (fun c offset rest other => ?_) source rest).trans
      (taken plain (.item (.items item done) :: frames) rest)
    exact if_neg fun closed => other closed.1

theorem takeAll_memberRow {entry : Spelling × Source} (taken : entry.2.Taken) (plain : item.Plain)
    {done : List (Text × Json)} {frames : List Frame}
    (waits : ∀ offset rest, machine.step [] '"' offset rest =
      beginKey [] (.members item done) frames '"' offset rest) (rest : List Token) :
    machine.takeAll (memberRow entry ++ rest) =
      (pair? item (frames.length + 1) entry).bind fun found =>
        (memberEnd (.members item (found :: done)) frames).takeAll rest := by
  rw [memberRow, List.cons_append, takeAll, take_key waits, pair?]
  cases entry.1.value? with
  | none => rfl
  | some key =>
    have colon : (colon (.members item done) key frames).take (.mark .colon) =
        some (expectValue item (.member (.members item done) key :: frames)) := rfl
    rw [map_some, bind_some, List.cons_append, takeAll, colon, bind_some,
      taken plain, bind_some, bind_map]
    rfl

theorem admits_member {entry : Spelling × Source} (taken : entry.2.Taken) (plain : item.Plain)
    (frames : List Frame) :
    (memberLoop item frames).Admits (memberRow entry)
      (pair? item (frames.length + 1) entry) where
  first rest := takeAll_memberRow taken plain (fun _ _ => rfl) rest
  next _ rest := takeAll_memberRow taken plain (fun _ _ => rfl) rest

theorem taken (source : Source) : source.Taken := by
  induction source using Source.induct with
  | scalar s =>
    intro shape plain frames rest
    rw [tokens, List.singleton_append, takeAll, take_scalar plain, value?, bind_map]
    rfl
  | array items ih =>
    intro shape plain frames rest
    rw [tokens, itemTokens_eq, List.cons_append, List.append_assoc, takeAll, take_openList plain,
      value?]
    split
    · cases known : shape.item? with
      | none => rfl
      | some item =>
        have inner : item.Plain := by
          cases shape <;> first | (cases known; exact plain) | exact plain.elim | cases known
        have admits : ∀ source ∈ items, (itemLoop item frames).Admits source.tokens
            (source.value? item (frames.length + 1)) := fun source member =>
          admits_item (ih source member) inner frames
        rw [map_some, bind_some, bind_some, bind_map, values?_eq]
        exact Loop.takeAll_rows admits rest
    · rfl
  | object members ih =>
    intro shape plain frames rest
    rw [tokens, memberTokens_eq, List.cons_append, List.append_assoc, takeAll,
      take_openObject plain, value?]
    split
    · cases known : shape.member? with
      | none => rfl
      | some item =>
        have inner : item.Plain := by
          cases shape <;> first | (cases known; exact plain) | exact plain.elim | cases known
        have admits : ∀ entry ∈ members, (memberLoop item frames).Admits (memberRow entry)
            (pair? item (frames.length + 1) entry) := fun entry member =>
          admits_member (ih entry member) inner frames
        rw [map_some, bind_some, bind_some, bind_map, pairs?_eq]
        exact Loop.takeAll_rows admits rest
    · rfl

/-- A document is read for what it stands for, however it is laid out. -/
theorem toOption_read {source : Source} {text : Text} (laid : source.LaidOut text)
    (plain : shape.Plain) : (read shape text).toOption = source.value? shape 0 := by
  obtain ⟨front, gap, spread, blank, rfl⟩ := laid
  have all := source.taken plain [] []
  rw [List.append_nil] at all
  rw [Json.toOption_read spread source.apart_tokens blank plain, all, bind_assoc]
  exact bind_fun_some _

end Source

end ComponentPack.Json
