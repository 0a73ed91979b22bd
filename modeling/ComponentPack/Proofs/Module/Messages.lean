import ComponentPack.Proofs.Module.Embedding
import Mathlib.Data.List.Chain

/-!
The messages that a module carries. Moving the lines of a printed table to the right prints the
table inside more containers (`indentTail_prettyAt`). The two texts around the messages occur
nowhere before their ends, so that a debug module gives its messages back
(`carried?_assemble`).
-/

set_option autoImplicit false

namespace ComponentPack.Text

open List

/-- One character may stand right before another: no line is empty, and none ends in a semicolon. -/
def Precedes (a b : Char) : Prop := (a = '\n' → b ≠ '\n') ∧ (b = '\n' → a ≠ ';')

/-- No line after the first is empty, and no line ends in a semicolon. -/
structure Framed (text : Text) : Prop where
  inner : text.IsChain Precedes
  last : ∀ c ∈ text.getLast?, c ≠ '\n' ∧ c ≠ ';'

namespace Framed

theorem append {a b : Text} (ha : Framed a) (hb : Framed b) : Framed (a ++ b) := by
  constructor
  · refine isChain_append.mpr ⟨ha.inner, hb.inner, fun c ends d _ => ?_⟩
    obtain ⟨feed, semicolon⟩ := ha.last c ends
    exact ⟨fun same => absurd same feed, fun _ => semicolon⟩
  · intro c ends
    rw [List.getLast?_append] at ends
    cases last : b.getLast? with
    | none =>
      rw [last, Option.none_or] at ends
      exact ha.last c ends
    | some d =>
      rw [last, Option.some_or] at ends
      exact hb.last c (last ▸ ends)

theorem of_line {line : Text} (single : '\n' ∉ line) (last : line.getLast? ≠ some ';') :
    Framed line := by
  constructor
  · refine (pairwise_of_forall_mem_list fun a ha b hb => ?_).isChain
    exact ⟨fun same => absurd (same ▸ ha) single, fun same => absurd (same ▸ hb) single⟩
  · intro c ends
    refine ⟨fun same => ?_, fun same => last (same ▸ ends)⟩
    exact single (same ▸ List.mem_of_getLast? ends)

/-- A line feed goes with the line after it. -/
theorem newline {line : Text} (filled : line ≠ []) (single : '\n' ∉ line)
    (last : line.getLast? ≠ some ';') : Framed ('\n' :: line) := by
  have framed := of_line single last
  cases line with
  | nil => exact absurd rfl filled
  | cons c line =>
    have other : c ≠ '\n' := fun same => single (same ▸ List.mem_cons_self)
    refine ⟨isChain_cons_cons.mpr ⟨⟨fun _ => other, fun _ => by decide⟩, framed.inner⟩, ?_⟩
    rw [List.getLast?_cons_cons]
    exact framed.last

/-- After a line feed comes a line that is not empty. -/
theorem split {first rest : Text} (framed : Framed (first ++ '\n' :: rest)) :
    Framed rest ∧ rest ≠ [] ∧ rest.head? ≠ some '\n' := by
  have chain := (isChain_append.mp framed.inner).2.1
  have ends := framed.last
  rw [List.getLast?_append_cons] at ends
  cases rest with
  | nil => exact absurd rfl (ends '\n' rfl).1
  | cons c rest =>
    obtain ⟨next, tail⟩ := isChain_cons_cons.mp chain
    rw [List.getLast?_cons_cons] at ends
    refine ⟨⟨tail, ends⟩, cons_ne_nil c rest, fun here => ?_⟩
    exact next.1 rfl (Option.some.inj here)

theorem unended {text : Text} (framed : Framed text) : ¬ [';', '\n'] <:+: text := by
  intro occurs
  have chain := List.IsChain.infix framed.inner occurs
  exact (isChain_pair.mp chain).2 rfl rfl

end Framed

end ComponentPack.Text

namespace ComponentPack.Module

open Text

/-- The text with all its lines but the first moved to the right. -/
def shift (width : Nat) (text : Text) : Text :=
  text.flatMap fun c => if c = '\n' then '\n' :: List.replicate width ' ' else [c]

theorem shift_append (width : Nat) (a b : Text) :
    shift width (a ++ b) = shift width a ++ shift width b :=
  List.flatMap_append

theorem shift_cons (width : Nat) {c : Char} (other : c ≠ '\n') (rest : Text) :
    shift width (c :: rest) = c :: shift width rest := by
  rw [shift, List.flatMap_cons, if_neg other]
  rfl

theorem shift_line (width : Nat) {line : Text} (single : '\n' ∉ line) :
    shift width line = line := by
  induction line with
  | nil => rfl
  | cons c line ih =>
    rw [List.mem_cons, not_or] at single
    rw [shift_cons width (Ne.symm single.1), ih single.2]

theorem shift_newline (width : Nat) (rest : Text) :
    shift width ('\n' :: rest) = '\n' :: (List.replicate width ' ' ++ shift width rest) := by
  rw [shift, List.flatMap_cons, if_pos rfl, List.cons_append]
  rfl

theorem indent_eq_shift (width : Nat) {text : Text} (framed : Framed text) (filled : text ≠ [])
    (first : text.head? ≠ some '\n') (returns : '\r' ∉ text) :
    indent width text = List.replicate width ' ' ++ shift width text := by
  induction size : text.length using Nat.strongRecOn generalizing text with
  | ind n ih =>
    rcases cut?_newline text with ⟨-, single⟩ | ⟨line, rest, -, rfl, single⟩
    · rw [indent, lines_eq_splitAll filled returns fun last => single (List.mem_of_getLast? last),
        splitAll_of_not_mem single, shift_line width single]
      simp [joinLines, List.isEmpty_iff, filled]
    · obtain ⟨framed, more, next⟩ := framed.split
      have inside : '\r' ∉ rest := fun member => returns (by simp [member])
      have before : '\r' ∉ line := fun member => returns (by simp [member])
      have begun : line ≠ [] := by
        rintro rfl
        exact first rfl
      have later := ih rest.length (by rw [← size, List.length_append, List.length_cons]; omega)
        framed more next inside rfl
      rw [shift_append, shift_newline, shift_line width single, ← later, indent, indent,
        lines_append_newline rest before, splitAll_of_not_mem single]
      cases others : lines rest with
      | nil =>
        obtain ⟨c, tail, rfl⟩ := List.exists_cons_of_ne_nil more
        exact absurd others (lines_ne_nil c tail)
      | cons line' lines =>
        simp [joinLines, List.isEmpty_iff, begun, List.intercalate_cons_cons]

theorem indentTail_eq_shift (width : Nat) {text : Text} (framed : Framed text)
    (returns : '\r' ∉ text) : indentTail width text = shift width text := by
  rw [indentTail]
  rcases cut?_newline text with ⟨cut, single⟩ | ⟨line, rest, cut, rfl, single⟩
  · rw [cut, shift_line width single]
  · obtain ⟨framed, more, next⟩ := framed.split
    have inside : '\r' ∉ rest := fun member => returns (by simp [member])
    rw [cut, shift_append, shift_newline, shift_line width single,
      ← indent_eq_shift width framed more next inside]

theorem newline_not_mem_render (n : Json.Number) : '\n' ∉ n.render := fun member =>
  absurd (n.isNumberChar_of_mem_render _ member) (by decide)

theorem newline_not_mem_quote (text : Text) : '\n' ∉ Json.quote text := fun member =>
  (Json.Printed.ne_of_mem_quote member).1 rfl

theorem shift_newLine (depth more : Nat) :
    shift (2 * more) (Json.newLine depth) = Json.newLine (depth + more) := by
  have blanks : '\n' ∉ List.replicate (2 * depth) ' ' := fun member =>
    absurd (List.eq_of_mem_replicate member) (by decide)
  rw [Json.newLine, Json.newLine, shift_newline, shift_line _ blanks,
    List.replicate_append_replicate]
  congr 2
  omega

theorem shift_intercalate (width : Nat) (separator : Text) (parts : List Text) :
    shift width (List.intercalate separator parts) =
      List.intercalate (shift width separator) (parts.map (shift width)) := by
  induction parts with
  | nil => rfl
  | cons part parts ih =>
    cases parts with
    | nil => simp
    | cons next parts =>
      rw [List.intercalate_cons_cons, shift_append, shift_append, ih]
      simp [List.intercalate_cons_cons]

theorem shift_block (more : Nat) {opening closing : Char} (ho : opening ≠ '\n')
    (hc : closing ≠ '\n') (depth : Nat) (items : List Text) :
    shift (2 * more) (Json.block opening closing depth items) =
      Json.block opening closing (depth + more) (items.map (shift (2 * more))) := by
  have next : depth + 1 + more = depth + more + 1 := by omega
  have ends : shift (2 * more) [closing] = [closing] := shift_cons _ hc []
  have comma : ',' ≠ '\n' := by decide
  rw [Json.block, Json.block]
  cases items with
  | nil => exact shift_line _ (by simp [ho.symm, hc.symm])
  | cons item items =>
    simp only [List.isEmpty_cons, List.map_cons, Bool.false_eq_true, if_false, shift_append,
      shift_intercalate, shift_cons _ ho, shift_cons _ comma, shift_newLine, ends, next]

mutual

/-- A value whose lines are moved to the right is printed inside more containers. -/
theorem shift_prettyAt (more depth : Nat) : ∀ value,
    shift (2 * more) (Json.prettyAt depth value) = Json.prettyAt (depth + more) value
  | .null => shift_line _ (show '\n' ∉ "null".toList by decide)
  | .bool true => shift_line _ (show '\n' ∉ "true".toList by decide)
  | .bool false => shift_line _ (show '\n' ∉ "false".toList by decide)
  | .number n => shift_line _ (newline_not_mem_render n)
  | .string s => shift_line _ (newline_not_mem_quote s)
  | .array items => by
    rw [Json.prettyAt, Json.prettyAt, shift_block more (by decide) (by decide),
      shift_prettyItems more (depth + 1) items]
    congr 2
    omega
  | .object members => by
    rw [Json.prettyAt, Json.prettyAt, shift_block more (by decide) (by decide),
      shift_prettyMembers more (depth + 1) members]
    congr 2
    omega

theorem shift_prettyItems (more depth : Nat) : ∀ items,
    (Json.prettyItems depth items).map (shift (2 * more)) = Json.prettyItems (depth + more) items
  | [] => rfl
  | item :: items => by
    rw [Json.prettyItems, Json.prettyItems, List.map_cons, shift_prettyAt more depth item,
      shift_prettyItems more depth items]

theorem shift_prettyMembers (more depth : Nat) : ∀ members,
    (Json.prettyMembers depth members).map (shift (2 * more)) =
      Json.prettyMembers (depth + more) members
  | [] => rfl
  | (key, value) :: members => by
    have front : '\n' ∉ Json.quote key ++ ": " := by
      simp [newline_not_mem_quote key]
    rw [Json.prettyMembers, Json.prettyMembers, List.map_cons, shift_append, shift_line _ front,
      shift_prettyAt more depth value, shift_prettyMembers more depth members]

end

theorem framed_pieces : Json.Pieces Framed where
  append := .append
  nil := .of_line List.not_mem_nil (by decide)
  word := by
    have each : Json.words.all (fun text => text.all fun c => c ≠ '\n' && c ≠ ';') = true := by
      decide
    intro text member
    have plain := List.all_eq_true.mp (List.all_eq_true.mp each text member)
    exact .of_line (fun inside => absurd (plain _ inside) (by decide))
      (fun ends => absurd (plain _ (List.mem_of_getLast? ends)) (by decide))
  number n := by
    refine .of_line (newline_not_mem_render n) fun ends => ?_
    exact absurd (n.isNumberChar_of_mem_render _ (List.mem_of_getLast? ends)) (by decide)
  quoted text := by
    refine .of_line (newline_not_mem_quote text) ?_
    rw [Json.quote, List.getLast?_concat]
    decide
  opening depth c member := by
    have plain : ['[', '\x7b', ','].all (fun c => c ≠ '\n' && c ≠ ';') = true := by decide
    obtain ⟨feed, semicolon⟩ : c ≠ '\n' ∧ c ≠ ';' := by
      simpa using List.all_eq_true.mp plain c member
    have blanks : ∀ d ∈ List.replicate (2 * (depth + 1)) ' ', d = ' ' := fun d =>
      List.eq_of_mem_replicate
    have front : Framed [c] := .of_line (by simpa using feed.symm) (by simpa using semicolon)
    refine front.append (.newline (by simp) (fun inside => ?_) fun ends => ?_)
    · exact absurd (blanks _ inside) (by decide)
    · exact absurd (blanks _ (List.mem_of_getLast? ends)) (by decide)
  closing depth c member := by
    have plain : [']', '\x7d'].all (fun c => c ≠ '\n' && c ≠ ';') = true := by decide
    obtain ⟨feed, semicolon⟩ : c ≠ '\n' ∧ c ≠ ';' := by
      simpa using List.all_eq_true.mp plain c member
    refine .newline (by simp) (fun inside => ?_) ?_
    · rcases List.mem_append.mp inside with blank | last
      · exact absurd (List.eq_of_mem_replicate blank) (by decide)
      · exact feed (List.mem_singleton.mp last).symm
    · have ends : (List.replicate (2 * depth) ' ' ++ [c]).getLast? = some c := List.getLast?_concat
      exact fun same => semicolon (Option.some.inj (ends.symm.trans same))

/-- Two blanks of indentation print a value inside one more container. -/
theorem indentTail_prettyAt (more depth : Nat) (value : Json) :
    indentTail (2 * more) (Json.prettyAt depth value) = Json.prettyAt (depth + more) value := by
  have framed := framed_pieces.prettyAt depth value
  rw [indentTail_eq_shift _ framed (Json.Printed.prettyAt depth value).returns, shift_prettyAt]

/-- What stands before the messages of a module, from the end of the line before them. -/
def messagesStart : Text := '\n' :: "    const localeMessages = "

/-- What stands after the messages of a module. -/
def messagesEnd : Text := ';' :: '\n' :: "    Object.keys"

/-- The text that a module carries as its messages. -/
def carried? (module : Text) : Option Text :=
  (cut? messagesStart module).bind fun (_, rest) =>
    (cut? messagesEnd rest).map fun (carried, _) => carried

/-- A phrase that begins with a line feed is sought at the beginnings of lines. -/
theorem not_infix_line {phrase line rest : Text} (single : '\n' ∉ line) (first : ¬ phrase <+: rest)
    (later : ¬ '\n' :: phrase <:+: rest) : ¬ '\n' :: phrase <:+: line ++ '\n' :: rest := by
  rintro ⟨before, after, whole⟩
  rw [List.append_assoc, List.cons_append] at whole
  rcases List.append_eq_append_iff.mp whole with ⟨more, rfl, same⟩ | ⟨more, rfl, same⟩
  · cases more with
    | nil => exact first ⟨after, (List.cons.inj same).2⟩
    | cons c more =>
      obtain ⟨rfl, -⟩ := List.cons.inj same
      exact single (List.mem_append_right before List.mem_cons_self)
  · cases more with
    | nil => exact first ⟨after, (List.cons.inj same).2.symm⟩
    | cons c more =>
      obtain ⟨rfl, rfl⟩ := List.cons.inj same
      exact later ⟨more, after, by simp⟩

/-- The lines of a debug module before its messages, without the last line feed. -/
def headLines (runtime : Render.Runtime) (name : Text) : Text :=
  runtime.register ++ "('" ++ escapeName name ++ "', \x7b" ++ '\n' ::
    ("  name: '" ++ escapeName name ++ "'," ++ '\n' ::
      ("  setup() \x7b" ++ '\n' ::
        ("    const \x7b t \x7d = " ++ runtime.useLocalization ++ "(\x7b\x7d);")))

theorem not_infix_headLines {runtime : Render.Runtime} (register : '\n' ∉ runtime.register)
    (helper : '\n' ∉ runtime.useLocalization) (name : Text) :
    ¬ messagesStart <:+: headLines runtime name := by
  have escaped := newline_not_mem_escapeName name
  refine not_infix_line (by simp [register, escaped]) (by simp) ?_
  refine not_infix_line (by simp [escaped]) (by simp) ?_
  refine not_infix_line (by decide) (by simp) ?_
  · intro occurs
    have inside := occurs.subset List.mem_cons_self
    simp [helper] at inside

theorem assemble_eq_messages (runtime : Render.Runtime) (name template members : Text)
    (messages : Localization.Table) :
    ∃ after, assemble runtime name (.template template) members messages =
      headLines runtime name ++
        (messagesStart ++ (indentTail 4 messages.pretty ++ (messagesEnd ++ after))) := by
  have keys : "    Object.keys(localeMessages).forEach((locale) => \x7b" =
      "    Object.keys" ++ "(localeMessages).forEach((locale) => \x7b" := by decide
  rw [assemble_eq]
  simp only [openingLines, constantLines, line, keys, headLines, messagesStart, messagesEnd,
    List.append_assoc, List.cons_append, List.nil_append]
  exact ⟨_, rfl⟩

/-- The messages of a debug module are found between the two texts around them, printed inside two
containers. -/
theorem carried?_assemble {runtime : Render.Runtime} (register : '\n' ∉ runtime.register)
    (helper : '\n' ∉ runtime.useLocalization) (name template members : Text)
    (messages : Localization.Table) :
    carried? (assemble runtime name (.template template) members messages) =
      some (messages.toJson.prettyAt 2) := by
  have deeper : indentTail 4 messages.pretty = messages.toJson.prettyAt 2 :=
    indentTail_prettyAt 2 0 messages.toJson
  have unended : ¬ messagesEnd <:+: messages.toJson.prettyAt 2 := fun occurs =>
    (framed_pieces.prettyAt 2 messages.toJson).unended (List.IsInfix.trans ⟨[], _, rfl⟩ occurs)
  have start : Borderless messagesStart := borderless_of_take_ne (by decide)
  have ending : Borderless messagesEnd := borderless_of_take_ne (by decide)
  obtain ⟨after, whole⟩ := assemble_eq_messages runtime name template members messages
  rw [carried?, whole, deeper, cut?_append_of_borderless _ start (by decide)
    (not_infix_headLines register helper name), Option.bind_some]
  simp only [cut?_append_of_borderless after ending (by decide) unended, Option.map_some]

end ComponentPack.Module
