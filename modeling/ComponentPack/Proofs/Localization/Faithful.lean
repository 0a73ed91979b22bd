import ComponentPack.Proofs.Localization.Reading

/-!
Printed tables are faithful. A table that was read, and whose numbers are whole, is read again from
its pretty text, and that text lists locales and keys in ascending order of their bytes.
-/

set_option autoImplicit false

namespace ComponentPack.Localization.Table

theorem parse_pretty {text : Text} {table : Table} (parsed : parse text = .ok table)
    (whole : table.isWhole = true) : parse table.pretty = .ok table := by
  have blank : Json.IsGap [] := fun _ none => absurd none List.not_mem_nil
  have again := parse_prettyAt (readable_of_parse parsed) whole 0 blank
  rwa [List.append_nil] at again

/-- The pretty text of a table is a document whose keys ascend. -/
theorem exists_laidOut_pretty {text : Text} {table : Table} (parsed : parse text = .ok table)
    (whole : table.isWhole = true) : ∃ source : Json.Source, source.LaidOut table.pretty ∧
      source.Ascending ∧ source.value? shape 0 = some table.toJson := by
  have readable := readable_of_parse parsed
  have fits := fits_toJson readable
  have blank : Json.IsGap [] := fun _ none => absurd none List.not_mem_nil
  exact ⟨.ofJson table.toJson,
    ⟨_, [], Json.spread_prettyAt fits whole 0, blank, (List.append_nil _).symm⟩,
    Json.Source.ascending_ofJson fits, value?_toJson readable whole⟩

/-- A table that was read, and whose numbers are whole, is read from its pretty text. So no other
such table has that text, reading and printing once more changes nothing, and the text lists the
locales and the keys of every object in ascending order of their bytes. -/
theorem pretty_faithful {text : Text} {table : Table} (parsed : parse text = .ok table)
    (whole : table.isWhole = true) :
    parse table.pretty = .ok table ∧
      (∀ (text' : Text) (table' : Table), parse text' = .ok table' → table'.isWhole = true →
        table'.pretty = table.pretty → table' = table) ∧
      (parse table.pretty).map pretty = .ok table.pretty ∧
      ∃ source : Json.Source, source.LaidOut table.pretty ∧ source.Ascending ∧
        source.value? shape 0 = some table.toJson := by
  have again := parse_pretty parsed whole
  refine ⟨again, fun text' table' parsed' whole' same => ?_, ?_,
    exists_laidOut_pretty parsed whole⟩
  · have again' := parse_pretty parsed' whole'
    rw [same, again] at again'
    exact (Except.ok.inj again').symm
  · rw [again]
    rfl

/-- Two locales out of order, with a list, an object out of order and an escape. -/
def unsorted : Text :=
  "\x7b\"en\": \x7b\"b\": [\x7b\"y\": 1, \"x\": -5\x7d], \"a\": \"\\u0041\"\x7d, \"de\": \x7b\x7d\x7d"

theorem pretty_faithful_unsorted : ∃ table, parse unsorted = .ok table ∧
    table.codes = ["de".toList, "en".toList] ∧ parse table.pretty = .ok table ∧
    ∃ source : Json.Source, source.LaidOut table.pretty ∧ source.Ascending := by
  have known : (parse unsorted).toOption.any (fun table =>
      table.isWhole && table.codes == ["de".toList, "en".toList]) = true := by decide +kernel
  cases parsed : parse unsorted with
  | error e =>
    rw [parsed] at known
    cases known
  | ok table =>
    rw [parsed] at known
    obtain ⟨whole, codes⟩ := Bool.and_eq_true_iff.mp known
    obtain ⟨again, -, -, source, laid, ascending, -⟩ := pretty_faithful parsed whole
    exact ⟨table, rfl, beq_iff_eq.mp codes, again, source, laid, ascending⟩

end ComponentPack.Localization.Table
