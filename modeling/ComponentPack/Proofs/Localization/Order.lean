import ComponentPack.Build.Export
import ComponentPack.Proofs.Json.Layout
import ComponentPack.Proofs.Json.Rearranging
import ComponentPack.Proofs.Localization.Merge

/-!
The order in which a table is written does not count, neither the order of members in its text nor
that of messages that are set one by one.
-/

set_option autoImplicit false

namespace ComponentPack.Localization.Table

/-- A message to be set: its locale, its key and its value. -/
structure Entry where
  code : Text
  key : Text
  value : Json

/-- Sets messages one after the other. -/
def insertEach (table : Table) (entries : List Entry) : Table :=
  entries.foldl (fun table entry => table.insert entry.code entry.key entry.value) table

theorem insert_comm (table : Table) {a b : Entry} (other : (a.code, a.key) ≠ (b.code, b.key)) :
    (table.insert a.code a.key a.value).insert b.code b.key b.value =
      (table.insert b.code b.key b.value).insert a.code a.key a.value := by
  refine ext_messages? fun code => ?_
  simp only [insert, messages?_insertMessages]
  by_cases same : a.code = b.code
  · have keys : a.key ≠ b.key := fun key => other (by rw [same, key])
    have swapped := ((table.messages? b.code).getD .empty).insert_comm keys a.value b.value
    simp only [same, if_true, Option.getD_some]
    split
    · exact congrArg some swapped
    · rfl
  · have differ : b.code ≠ a.code := Ne.symm same
    simp only [if_neg same, if_neg differ]
    by_cases first : a.code = code
    · have second : b.code ≠ code := fun here => same (first.trans here.symm)
      simp only [if_pos first, if_neg second]
    · simp only [if_neg first]

theorem insertEach_of_perm (table : Table) {entries entries' : List Entry}
    (perm : entries.Perm entries')
    (distinct : entries.Pairwise fun a b => (a.code, a.key) ≠ (b.code, b.key)) :
    table.insertEach entries = table.insertEach entries' :=
  Dictionary.foldl_eq_of_perm (fun table _ _ other => table.insert_comm other) perm distinct table

/-- Texts that are read for the same value give the same table, or the same fault of the table. -/
theorem parse_eq_of_read {text text' : Text}
    (same : (Json.read shape text).toOption = (Json.read shape text').toOption) :
    parse text = parse text' ∨ ∃ reason reason', parse text = .error (.invalidJson reason) ∧
      parse text' = .error (.invalidJson reason') := by
  unfold parse
  cases first : Json.read shape text with
  | error reason =>
    cases second : Json.read shape text' with
    | error reason' => exact .inr ⟨reason, reason', rfl, rfl⟩
    | ok value =>
      rw [first, second] at same
      cases same
  | ok value =>
    cases second : Json.read shape text' with
    | error reason =>
      rw [first, second] at same
      cases same
    | ok value' =>
      rw [first, second] at same
      cases same
      exact .inl rfl

/-- Members of any objects in the text of a table may change their places, as long as the keys of
every object differ, and blanks between tokens may change: the table, its pretty text and its
language files stay the same, and so does the locale that is refused. Messages with different keys
may be set in any order. -/
theorem parse_rearranged {source source' : Json.Source} {text text' : Text}
    (distinct : source.Distinct) (rearranged : source.Rearranged source')
    (laid : source.LaidOut text) (laid' : source'.LaidOut text') :
    (∀ table, parse text = .ok table ↔ parse text' = .ok table) ∧
      (∀ code, parse text = .error (.invalidLocale code) ↔
        parse text' = .error (.invalidLocale code)) ∧
      (parse text).toOption.map pretty = (parse text').toOption.map pretty ∧
      (∀ options, (parse text).toOption.map (Build.languageFiles options) =
        (parse text').toOption.map (Build.languageFiles options)) ∧
      ∀ (table : Table) (entries entries' : List Entry), entries.Perm entries' →
        (entries.Pairwise fun a b => (a.code, a.key) ≠ (b.code, b.key)) →
        table.insertEach entries = table.insertEach entries' := by
  have plain : shape.Plain := trivial
  have read : (Json.read shape text).toOption = (Json.read shape text').toOption := by
    rw [Json.Source.toOption_read laid plain, Json.Source.toOption_read laid' plain]
    exact (rearranged.value?_eq distinct).2 shape 0
  have orders := fun (table : Table) (entries entries' : List Entry) (perm : entries.Perm entries')
    distinct => table.insertEach_of_perm perm distinct
  rcases parse_eq_of_read read with same | ⟨reason, reason', refused, refused'⟩
  · rw [same]
    exact ⟨fun _ => Iff.rfl, fun _ => Iff.rfl, rfl, fun _ => rfl, orders⟩
  · rw [refused, refused']
    exact ⟨fun _ => by simp, fun _ => by simp, rfl, fun _ => rfl, orders⟩

/-- A document with its locales and the keys of every object in descending order. -/
def descendingSource : Json.Source :=
  .object [
    (.ofText "en", .object [
      (.ofText "b", .array [.object [
        (.ofText "y", .scalar (.number (.ofInt (-5)))),
        (.ofText "x", .scalar (.bool true))]]),
      (.ofText "a", .scalar .null)]),
    (.ofText "de", .object [])]

def descendingText : Text :=
  "\x7b\"en\":\x7b\"b\":[\x7b\"y\":-5,\"x\":true\x7d],\"a\":null\x7d,\"de\":\x7b\x7d\x7d"

/-- The same in ascending order. -/
def ascendingSource : Json.Source :=
  .object [
    (.ofText "de", .object []),
    (.ofText "en", .object [
      (.ofText "a", .scalar .null),
      (.ofText "b", .array [.object [
        (.ofText "x", .scalar (.bool true)),
        (.ofText "y", .scalar (.number (.ofInt (-5))))]])])]

theorem rearranged_descending : descendingSource.Rearranged ascendingSource :=
  .trans (.members (.swap _ _ _)) (.inObject [_] [] _
    (.trans (.members (.swap _ _ _)) (.inObject [_] [] _
      (.inArray [] [] (.members (.swap _ _ _))))))

theorem distinct_descending : descendingSource.Distinct := by
  have pair {a b : Text} {x y : Json.Source} (other : a ≠ b) (first : x.Distinct)
      (second : y.Distinct) : Json.Source.Distinct (.object [(.ofText a, x), (.ofText b, y)]) := by
    refine .object ?_ (by simp [first, second])
    simp [Json.Spelling.value?_ofText, Ne.symm other]
  have none : Json.Source.Distinct (.object []) := .object .nil (by simp)
  refine pair (by decide) (pair (by decide) (.array ?_) (.scalar _)) none
  exact List.forall_mem_singleton.mpr (pair (by decide) (.scalar _) (.scalar _))

theorem parse_rearranged_descending : ∃ table, parse descendingText = .ok table ∧
    parse (ascendingSource.tokens.flatMap fun token => [' '] ++ token.text) = .ok table ∧
    empty.insertEach [⟨['a'], ['k'], .null⟩, ⟨['a'], ['l'], .null⟩] =
      empty.insertEach [⟨['a'], ['l'], .null⟩, ⟨['a'], ['k'], .null⟩] := by
  have blank : Json.IsGap [' '] := List.forall_mem_singleton.mpr rfl
  have laid : descendingSource.LaidOut descendingText :=
    descendingSource.laidOut_flatMap fun _ none => absurd none List.not_mem_nil
  obtain ⟨tables, -, -, -, orders⟩ := parse_rearranged distinct_descending rearranged_descending
    laid (ascendingSource.laidOut_flatMap blank)
  have distinct : [⟨['a'], ['k'], .null⟩, ⟨['a'], ['l'], .null⟩].Pairwise
      fun a b : Entry => (a.code, a.key) ≠ (b.code, b.key) := by simp
  have accepted : (parse descendingText).toOption.isSome = true := by decide +kernel
  cases parsed : parse descendingText with
  | error e =>
    rw [parsed] at accepted
    cases accepted
  | ok table => exact ⟨table, rfl, (tables table).mp parsed, orders _ _ _ (.swap _ _ _) distinct⟩

end ComponentPack.Localization.Table
