import ComponentPack.Localization.Collector
import ComponentPack.Proofs.Dictionary

/-!
Merged tables. A message has the value of the last table that defines it, and a locale is there if
it is in one of the tables. The tables of the single locales, put together, give a table back.
-/

set_option autoImplicit false

namespace ComponentPack.Localization

open List Dictionary

variable {table : Table} {code : Text}

namespace Table

theorem ext_messages? {a b : Table} (same : ∀ code, a.messages? code = b.messages? code) :
    a = b := by
  cases a
  cases b
  exact congrArg Table.mk (ext_get? same)

theorem mem_codes_iff : code ∈ table.codes ↔ ∃ messages, table.messages? code = some messages :=
  mem_keys_iff

theorem messages?_insertMessages (table : Table) (code : Text) (messages : List (Text × Json))
    (other : Text) :
    (table.insertMessages code messages).messages? other =
      if code = other then some (((table.messages? code).getD .empty).insertAll messages)
      else table.messages? other :=
  Dictionary.get?_insert _ _ _ _

/-- Entering locales with different codes: each is entered once. -/
theorem messages?_foldl_insertMessages (table : Table) {entries : List (Text × Messages)}
    (ascending : entries.Pairwise fun a b => a.1 < b.1) (code : Text) :
    (entries.foldl (fun table (code, messages) => table.insertMessages code messages.entries)
      table).messages? code =
      match Dictionary.lookup code entries with
      | some messages => some (((table.messages? code).getD .empty).insertAll messages.entries)
      | none => table.messages? code := by
  induction entries generalizing table with
  | nil => rfl
  | cons entry entries ih =>
    obtain ⟨first, messages⟩ := entry
    obtain ⟨above, ascending⟩ := pairwise_cons.mp ascending
    rw [foldl_cons, ih _ ascending, Dictionary.lookup, messages?_insertMessages]
    by_cases same : first = code
    -- Codes ascend, so that a code does not come again.
    · have gone : Dictionary.lookup code entries = none := by
        cases found : Dictionary.lookup code entries with
        | none => rfl
        | some later =>
          have below := above _ (mem_of_lookup found)
          exact absurd (same ▸ below) (List.lt_irrefl _)
      simp [same, gone]
    · simp [same]

theorem messages?_merge (table other : Table) (code : Text) :
    (table.merge other).messages? code =
      match other.messages? code with
      | some messages => some (((table.messages? code).getD .empty).insertAll messages.entries)
      | none => table.messages? code :=
  messages?_foldl_insertMessages table other.locales.ascending code

theorem get?_merge (table other : Table) (code key : Text) :
    (table.merge other).get? code key = (other.get? code key).or (table.get? code key) := by
  rw [get?, messages?_merge, get?, get?]
  cases other.messages? code with
  | none => rfl
  | some messages =>
    simp only [Option.bind_some, Dictionary.get?_insertAll_entries]
    cases table.messages? code with
    | none => rfl
    | some old => rfl

theorem mem_codes_merge {other : Table} :
    code ∈ (table.merge other).codes ↔ code ∈ table.codes ∨ code ∈ other.codes := by
  simp only [mem_codes_iff, messages?_merge]
  cases other.messages? code <;> simp

/-- The tables of a row merged into one, later ones winning. -/
def mergeAll (tables : List Table) : Table := tables.foldl merge empty

theorem get?_foldl_merge (table : Table) (tables : List Table) (code key : Text) :
    (tables.foldl merge table).get? code key =
      (tables.reverse.findSome? fun t => t.get? code key).or (table.get? code key) := by
  induction tables generalizing table with
  | nil => rfl
  | cons first tables ih =>
    rw [foldl_cons, ih, get?_merge, reverse_cons, List.findSome?_append, Option.or_assoc]
    congr 1
    rw [List.findSome?_singleton]

/-- A message has the value of the last table that defines it. -/
theorem get?_mergeAll (tables : List Table) (code key : Text) :
    (mergeAll tables).get? code key = tables.reverse.findSome? fun t => t.get? code key := by
  rw [mergeAll, get?_foldl_merge]
  exact Option.or_none

theorem mem_codes_foldl_merge {tables : List Table} :
    code ∈ (tables.foldl merge table).codes ↔
      code ∈ table.codes ∨ ∃ t ∈ tables, code ∈ t.codes := by
  induction tables generalizing table with
  | nil => simp
  | cons first tables ih => simp [ih, mem_codes_merge, or_assoc]

theorem mem_codes_mergeAll {tables : List Table} :
    code ∈ (mergeAll tables).codes ↔ ∃ t ∈ tables, code ∈ t.codes := by
  rw [mergeAll, mem_codes_foldl_merge]
  simp [codes, empty, Dictionary.keys, Dictionary.empty]

theorem messages?_project (table : Table) (code other : Text) :
    (table.project code).messages? other =
      if code = other then table.messages? other else none := by
  rw [project]
  cases found : table.messages? code with
  | none =>
    by_cases same : code = other
    · rw [if_pos same, ← same, found]
      rfl
    · rw [if_neg same]
      rfl
  | some messages =>
    have entered := Dictionary.get?_insert (.empty : Dictionary Text Messages) code messages other
    by_cases same : code = other
    · rw [if_pos same] at entered ⊢
      rw [← same, found]
      exact same ▸ entered
    · rw [if_neg same] at entered ⊢
      exact entered

theorem messages?_foldl_project (table start : Table) {codes : List Text} (distinct : codes.Nodup)
    (code : Text) (fresh : code ∈ codes → start.messages? code = none) :
    ((codes.map table.project).foldl merge start).messages? code =
      if code ∈ codes then table.messages? code else start.messages? code := by
  induction codes generalizing start with
  | nil => rfl
  | cons first codes ih =>
    obtain ⟨new, distinct⟩ := nodup_cons.mp distinct
    have step : (start.merge (table.project first)).messages? code =
        if first = code then table.messages? code else start.messages? code := by
      rw [messages?_merge, messages?_project]
      by_cases same : first = code
      · rw [if_pos same, if_pos same, fresh (by simp [same])]
        cases table.messages? code with
        | none => rfl
        | some messages => exact congrArg some (insertAll_empty_entries messages)
      · rw [if_neg same, if_neg same]
    rw [map_cons, foldl_cons, ih _ distinct, step]
    · by_cases same : first = code
      · have out : code ∉ codes := same ▸ new
        simp [same, out]
      · simp [same, Ne.symm same]
    · intro member
      have other : first ≠ code := fun same => new (same ▸ member)
      rw [step, if_neg other, fresh (mem_cons_of_mem first member)]

/-- The tables of the single locales give the table back, whatever their order. -/
theorem mergeAll_project_of_perm (table : Table) {order : List Text}
    (listed : order.Perm table.codes) : mergeAll (order.map table.project) = table := by
  refine ext_messages? fun code => ?_
  have distinct : order.Nodup := listed.nodup_iff.mpr table.locales.nodup_keys
  rw [mergeAll, messages?_foldl_project table empty distinct code fun _ => rfl]
  split
  · rfl
  · next absent =>
    rw [listed.mem_iff] at absent
    cases found : table.messages? code with
    | none => rfl
    | some messages => exact absurd (mem_codes_iff.mpr ⟨messages, found⟩) absent

theorem mergeAll_project (table : Table) : mergeAll (table.codes.map table.project) = table :=
  mergeAll_project_of_perm table (List.Perm.refl _)

theorem isValidCode_of_parse {text : Text} (parsed : parse text = .ok table) :
    ∀ code ∈ table.codes, isValidCode code = true := by
  rw [parse] at parsed
  split at parsed
  · simp at parsed
  · simp only at parsed
    split at parsed
    · simp at parsed
    · next known =>
      rw [← Except.ok.inj parsed]
      simpa using known

/-- The text of a table ends with a bracket, not with a blank. -/
theorem trimEnd_pretty (table : Table) :
    Text.trimEnd (table.pretty ++ ['\n']) = table.pretty := by
  obtain ⟨front, ends⟩ : ∃ front, table.pretty = front ++ ['\x7d'] := by
    rw [pretty, Json.pretty, toJson, Json.prettyAt, Json.block]
    split
    · exact ⟨['\x7b'], rfl⟩
    · exact ⟨_, rfl⟩
  have bracket : Text.isBlank '\x7d' = false := by decide
  have newline : Text.isBlank '\n' = true := by decide
  simp [Text.trimEnd, ends, bracket, newline]

end Table

namespace Collector

theorem table_add (collector : Collector) (component : Text) (table : Table) :
    (collector.add component table).1.table = collector.table.merge table := by
  rw [add]
  split
  · next empty =>
    have none : table.locales.entries = [] := isEmpty_iff.mp empty
    rw [Table.merge, none]
    rfl
  · rfl

/-- The codes that have been seen are those of the merged table. -/
theorem codes_add {collector : Collector} (known : collector.codes = collector.table.codes)
    (component : Text) (table : Table) :
    (collector.add component table).1.codes = (collector.add component table).1.table.codes := by
  rw [table_add]
  refine keys_eq_of_mem_iff fun code => ?_
  have seen_iff : code ∈ collector.seen.keys ↔ code ∈ collector.table.codes := by
    rw [← known]
    rfl
  change code ∈ (collector.add component table).1.seen.keys ↔
    code ∈ (collector.table.merge table).codes
  rw [Table.mem_codes_merge, ← seen_iff, add]
  split
  · next empty =>
    have none : table.codes = [] := by
      rw [Table.codes, Dictionary.keys, isEmpty_iff.mp empty]
      rfl
    simp [none]
  · rw [← contains_iff_mem_keys, contains_insertAll,
      ← contains_iff_mem_keys]
    cases seen : collector.seen.contains code <;> simp [newCodes, seen]

end Collector

end ComponentPack.Localization
