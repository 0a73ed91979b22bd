import ComponentPack.Proofs.Json.Layout
import ComponentPack.Proofs.Localization.Merge

/-!
Printed tables are read back. What is read from the text of a component has valid codes and messages
that fit into a table; merging keeps both, and such a table is read from its pretty form at any
depth of indentation, provided that its numbers are whole.
-/

set_option autoImplicit false

namespace ComponentPack.Localization.Table

open List

variable {table : Table} {code key : Text} {value : Json} {tables : List Table}

/-- A table that the text of a component can give. -/
structure Readable (table : Table) : Prop where
  codes : ∀ code ∈ table.codes, isValidCode code = true
  fits : ∀ code key value, table.get? code key = some value → value.Fits 2

/-- Whether all numbers of the messages are integers. -/
def isWhole (table : Table) : Bool := table.toJson.isWhole

theorem get?_of_mem {messages : Messages} (listed : (code, messages) ∈ table.locales.entries)
    (among : (key, value) ∈ messages.entries) : table.get? code key = some value := by
  have found : table.messages? code = some messages := Dictionary.get?_eq_some_iff.mpr listed
  rw [get?, found]
  exact Dictionary.get?_eq_some_iff.mpr among

theorem exists_mem_of_get? (found : table.get? code key = some value) : ∃ messages : Messages,
      (code, messages) ∈ table.locales.entries ∧ (key, value) ∈ messages.entries := by
  obtain ⟨messages, listed, among⟩ := Option.bind_eq_some_iff.mp found
  exact ⟨messages, Dictionary.get?_eq_some_iff.mp listed, Dictionary.get?_eq_some_iff.mp among⟩

theorem isWhole_iff : table.isWhole = true ↔
    ∀ code key value, table.get? code key = some value → value.isWhole = true := by
  rw [isWhole, toJson, Json.isWhole, Json.haveWhole_iff, forall_mem_map]
  simp only [Json.isWhole, Json.haveWhole_iff]
  constructor
  · intro each code key value found
    obtain ⟨messages, listed, among⟩ := exists_mem_of_get? found
    exact each _ listed _ among
  · intro each locale listed entry among
    exact each _ _ _ (get?_of_mem listed among)

theorem ofJson_toJson (table : Table) : ofJson table.toJson = table := by
  have whole := Dictionary.insertAll_empty_entries table.locales
  rw [toJson, ofJson, map_map]
  refine congrArg Table.mk (Eq.trans (congrArg Dictionary.ofList ?_) whole)
  refine (map_congr_left fun entry _ => ?_).trans (map_id _)
  exact Prod.ext rfl (Dictionary.insertAll_empty_entries entry.2)

theorem fits_of_ofJson {json : Json} (fits : json.Fits 0)
    (found : (ofJson json).get? code key = some value) : value.Fits 2 := by
  obtain ⟨messages, listed, among⟩ := exists_mem_of_get? found
  cases fits with
  | object room ascending inner =>
    obtain ⟨⟨code, locale⟩, given, same⟩ := mem_map.mp (Dictionary.mem_of_mem_ofList listed)
    have fits := inner _ given
    obtain ⟨-, rfl⟩ := Prod.mk.inj same
    cases fits with
    | object room ascending inner => exact inner (key, value) (Dictionary.mem_of_mem_ofList among)
    | _ => exact absurd among not_mem_nil
  | _ => exact absurd listed not_mem_nil

theorem readable_of_parse {text : Text} (parsed : parse text = .ok table) : table.Readable := by
  refine ⟨isValidCode_of_parse parsed, fun code key value found => ?_⟩
  unfold parse at parsed
  split at parsed
  · cases parsed
  · next json done =>
    simp only at parsed
    split at parsed
    · cases parsed
    · cases parsed
      have plain : shape.Plain := trivial
      exact fits_of_ofJson (Json.fits_of_read plain done) found

theorem fits_toJson (readable : table.Readable) : table.toJson.Fits 0 := by
  refine .object (by decide) (pairwise_map.mpr table.locales.ascending) ?_
  refine forall_mem_map.mpr fun locale listed => ?_
  refine .object (by decide) locale.2.ascending fun entry among => ?_
  exact readable.fits _ _ _ (get?_of_mem listed among)

/-- The document of a table stands for it in the shape of tables. -/
theorem value?_toJson (readable : table.Readable) (whole : table.isWhole = true) :
    (Json.Source.ofJson table.toJson).value? shape 0 = some table.toJson := by
  refine Json.Source.value?_object rfl (by decide)
    (pairwise_map.mpr table.locales.ascending) ?_
  refine forall_mem_map.mpr fun locale listed => ?_
  refine Json.Source.value?_object rfl (by decide) locale.2.ascending fun entry among => ?_
  have found := get?_of_mem listed among
  exact Json.Source.value?_ofJson (readable.fits _ _ _ found) (isWhole_iff.mp whole _ _ _ found)

/-- A readable table is read from its pretty form, whatever its margin and the blanks after it. -/
theorem parse_prettyAt (readable : table.Readable) (whole : table.isWhole = true) (depth : Nat)
    {blanks : Text} (each : ∀ c ∈ blanks, Json.Scanner.Cursor.isBlank c = true) :
    parse (table.toJson.prettyAt depth ++ blanks) = .ok table := by
  have valid : table.codes.find? (fun code => !isValidCode code) = none := by
    simpa using readable.codes
  have plain : shape.Plain := trivial
  rw [parse, Json.read_prettyAt plain (fits_toJson readable) whole (value?_toJson readable whole)
    depth each]
  simp only [ofJson_toJson, valid]

/-- What holds of the messages of all tables holds of the merged messages. -/
theorem forall_mergeAll {P : Json → Prop}
    (each : ∀ table ∈ tables, ∀ code key value, table.get? code key = some value → P value) :
    ∀ code key value, (mergeAll tables).get? code key = some value → P value := by
  intro code key value found
  rw [get?_mergeAll] at found
  obtain ⟨table, member, given⟩ := exists_of_findSome?_eq_some found
  exact each table (mem_reverse.mp member) code key value given

theorem Readable.mergeAll (each : ∀ table ∈ tables, table.Readable) :
    (mergeAll tables).Readable := by
  refine ⟨fun code member => ?_, forall_mergeAll fun table member => (each table member).fits⟩
  obtain ⟨table, among, listed⟩ := mem_codes_mergeAll.mp member
  exact (each table among).codes code listed

theorem isWhole_mergeAll (each : ∀ table ∈ tables, table.isWhole = true) :
    (mergeAll tables).isWhole = true :=
  isWhole_iff.mpr (forall_mergeAll fun table member => isWhole_iff.mp (each table member))

end ComponentPack.Localization.Table
