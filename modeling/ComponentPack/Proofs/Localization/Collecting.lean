import ComponentPack.Proofs.Localization.Merge
import Mathlib.Data.List.Induction

/-!
What a collector has seen after a run of calls. The codes that it keeps are those of its table, and
the table is the merge of all tables so far. A locale is reported once, for the first component that
has it, unless it was there from the beginning.
-/

set_option autoImplicit false

namespace ComponentPack.Localization.Collector

open List

/-- One call: a component and its table. -/
abbrev Call := Text × Table

/-- Takes one call; what it logs comes after what has been logged. -/
def take (state : Collector × Log) (call : Call) : Collector × Log :=
  ((state.1.add call.1 call.2).1, state.2 ++ (state.1.add call.1 call.2).2)

/-- A new collector after a row of calls, and what they have logged. -/
def run (calls : List Call) : Collector × Log := calls.foldl take (empty, [])

theorem run_concat (calls : List Call) (call : Call) :
    run (calls ++ [call]) = take (run calls) call := by
  rw [run, foldl_append]
  rfl

theorem table_run (calls : List Call) :
    (run calls).1.table = Table.mergeAll (calls.map Prod.snd) := by
  induction calls using List.reverseRecOn with
  | nil => rfl
  | append_singleton calls call ih =>
    rw [run_concat, take, table_add, ih, map_append, Table.mergeAll, Table.mergeAll,
      foldl_append]
    rfl

theorem codes_run (calls : List Call) : (run calls).1.codes = (run calls).1.table.codes := by
  induction calls using List.reverseRecOn with
  | nil => rfl
  | append_singleton calls call ih =>
    rw [run_concat]
    exact codes_add ih call.1 call.2

theorem mem_codes_run {calls : List Call} {code : Text} :
    code ∈ (run calls).1.codes ↔ ∃ call ∈ calls, code ∈ call.2.codes := by
  rw [codes_run, table_run, Table.mem_codes_mergeAll]
  constructor
  · rintro ⟨table, listed, held⟩
    obtain ⟨call, member, rfl⟩ := mem_map.mp listed
    exact ⟨call, member, held⟩
  · rintro ⟨call, member, held⟩
    exact ⟨call.2, mem_map_of_mem member, held⟩

/-- The first call whose table has a code. -/
def firstWith (calls : List Call) (code : Text) : Option Nat :=
  calls.findIdx? fun call => code ∈ call.2.codes

/-- The codes of the first table that is not empty. -/
def initialCodes (calls : List Call) : List Text :=
  ((calls.find? fun call => !call.2.isEmpty).map fun call => call.2.codes).getD []

/-- The reports about a row of calls, each by the place of a call and a code: a code is reported for
the first call that has it, unless it is one of the initial codes. The calls come in order, and so
do the codes of one call. -/
structure Reported (calls : List Call) (reports : List (Nat × Text)) : Prop where
  mem_iff : ∀ place code, (place, code) ∈ reports ↔
    firstWith calls code = some place ∧ code ∉ initialCodes calls
  ordered : reports.Pairwise (Prod.Lex (· < ·) (· < ·))

/-- How it is reported that a component introduces a locale. -/
def warning (code : Text) (call : Call) : Log.Entry :=
  Log.warn (call.1 ++ " introduces locale `" ++ code ++ "`")

section Calls

variable {calls : List Call} {call : Call} {code : Text} {place : Nat}

theorem firstWith_eq_none_iff :
    firstWith calls code = none ↔ code ∉ (run calls).1.codes := by
  rw [firstWith, List.findIdx?_eq_none_iff, mem_codes_run]
  simp

theorem firstWith_concat : firstWith (calls ++ [call]) code =
    (firstWith calls code).or (if code ∈ call.2.codes then some calls.length else none) := by
  rw [firstWith, List.findIdx?_append, firstWith]
  by_cases held : code ∈ call.2.codes <;> simp [held]

theorem lt_of_firstWith (found : firstWith calls code = some place) : place < calls.length :=
  (List.findIdx?_eq_some_iff_getElem.mp found).1

theorem codes_eq_nil_of_isEmpty {table : Table} (empty : table.isEmpty = true) :
    table.codes = [] := by
  rw [Table.codes, Dictionary.keys, isEmpty_iff.mp empty, map_nil]

/-- Codes have been seen as soon as a table is not empty. -/
theorem seen_isEmpty_iff : (run calls).1.seen.isEmpty = true ↔
    (calls.find? fun call => !call.2.isEmpty) = none := by
  have listed : (run calls).1.seen.isEmpty = true ↔ ∀ code, code ∉ (run calls).1.codes := by
    rw [Dictionary.isEmpty, List.isEmpty_iff, codes, Dictionary.keys, ← List.map_eq_nil_iff,
      List.eq_nil_iff_forall_not_mem]
  rw [listed, List.find?_eq_none]
  simp only [mem_codes_run, not_exists, not_and, Bool.not_eq_true', Bool.not_eq_false]
  constructor
  · intro none call member
    rw [Table.isEmpty, Dictionary.isEmpty, List.isEmpty_iff, ← List.map_eq_nil_iff,
      List.eq_nil_iff_forall_not_mem]
    exact fun code held => none code call member held
  · intro each code call member held
    rw [codes_eq_nil_of_isEmpty (each call member)] at held
    exact not_mem_nil held

theorem firstWith_eq_none_of_unseen
    (unseen : (calls.find? fun call => !call.2.isEmpty) = none) : firstWith calls code = none := by
  rw [firstWith_eq_none_iff, codes, Dictionary.keys,
    isEmpty_iff.mp (seen_isEmpty_iff.mpr unseen)]
  exact not_mem_nil

theorem mem_run_of_mem_initialCodes (member : code ∈ initialCodes calls) :
    code ∈ (run calls).1.codes := by
  rw [initialCodes] at member
  cases found : calls.find? fun call => !call.2.isEmpty with
  | none => simp [found] at member
  | some first =>
    rw [found] at member
    exact mem_codes_run.mpr ⟨first, mem_of_find?_eq_some found, member⟩

variable {reports : List (Nat × Text)}

/-- A call without locales leaves the reports as they are. -/
theorem Reported.concat_empty (reported : Reported calls reports)
    (empty : call.2.isEmpty = true) : Reported (calls ++ [call]) reports := by
  refine ⟨fun place code => ?_, reported.ordered⟩
  have none : code ∉ call.2.codes := by simp [codes_eq_nil_of_isEmpty empty]
  have initial : initialCodes (calls ++ [call]) = initialCodes calls := by
    simp [initialCodes, List.find?_append, empty]
  rw [reported.mem_iff, firstWith_concat, if_neg none, Option.or_none, initial]

/-- The first call with locales is not reported. -/
theorem Reported.concat_first (unseen : (calls.find? fun call => !call.2.isEmpty) = none)
    (some : call.2.isEmpty = false) : Reported (calls ++ [call]) [] := by
  refine ⟨fun place code => ?_, List.Pairwise.nil⟩
  have initial : initialCodes (calls ++ [call]) = call.2.codes := by
    simp [initialCodes, List.find?_append, unseen, some]
  rw [firstWith_concat, firstWith_eq_none_of_unseen unseen, initial]
  by_cases held : code ∈ call.2.codes <;> simp [held]

theorem Reported.eq_nil (reported : Reported calls reports)
    (unseen : (calls.find? fun call => !call.2.isEmpty) = none) : reports = [] := by
  rw [List.eq_nil_iff_forall_not_mem]
  rintro ⟨place, code⟩ listed
  have found := ((reported.mem_iff place code).mp listed).1
  rw [firstWith_eq_none_of_unseen unseen] at found
  cases found

/-- A later call is reported for the codes that have not been seen. -/
theorem Reported.concat_later (reported : Reported calls reports) {first : Call}
    (known : (calls.find? fun call => !call.2.isEmpty) = some first) :
    Reported (calls ++ [call])
      (reports ++ ((run calls).1.newCodes call.2).map fun code => (calls.length, code)) := by
  have initial : initialCodes (calls ++ [call]) = initialCodes calls := by
    simp [initialCodes, List.find?_append, known]
  have new_iff (code : Text) : code ∈ (run calls).1.newCodes call.2 ↔
      code ∈ call.2.codes ∧ firstWith calls code = none := by
    rw [newCodes, mem_filter, firstWith_eq_none_iff, codes,
      ← Dictionary.contains_iff_mem_keys, Bool.not_eq_true', Bool.not_eq_true]
  constructor
  · intro place code
    have outside : firstWith calls code = none → code ∉ initialCodes calls := fun unseen member =>
      firstWith_eq_none_iff.mp unseen (mem_run_of_mem_initialCodes member)
    rw [mem_append, reported.mem_iff, initial, firstWith_concat]
    simp only [mem_map, new_iff, Prod.mk.injEq]
    cases seen : firstWith calls code with
    | some before => simp [seen]
    | none => by_cases held : code ∈ call.2.codes <;> simp [held, outside seen, seen]
  · have ascending : ((run calls).1.newCodes call.2).Pairwise (· < ·) :=
      (pairwise_map.mpr call.2.locales.ascending).filter _
    refine pairwise_append.mpr ⟨reported.ordered, pairwise_map.mpr ?_, ?_⟩
    · exact ascending.imp fun below => .right _ below
    · rintro ⟨place, code⟩ listed later member
      obtain ⟨new, -, rfl⟩ := mem_map.mp member
      exact .left _ _ (lt_of_firstWith ((reported.mem_iff place code).mp listed).1)

end Calls

/-- What a run logs are the reports about its calls. -/
theorem exists_reported (calls : List Call) : ∃ reports, Reported calls reports ∧
    (run calls).2.map some = reports.map fun report => calls[report.1]?.map (warning report.2) := by
  induction calls using List.reverseRecOn with
  | nil => exact ⟨[], ⟨by simp [firstWith], List.Pairwise.nil⟩, rfl⟩
  | append_singleton calls call ih =>
    obtain ⟨reports, reported, logged⟩ := ih
    have kept : (reports.map fun report => (calls ++ [call])[report.1]?.map (warning report.2)) =
        (run calls).2.map some := by
      rw [logged]
      refine map_congr_left fun report listed => ?_
      have early := lt_of_firstWith ((reported.mem_iff report.1 report.2).mp listed).1
      rw [List.getElem?_append_left early]
    rw [run_concat, take, add]
    cases empty : call.2.isEmpty with
    | true =>
      refine ⟨reports, reported.concat_empty empty, ?_⟩
      rw [kept]
      simp
    | false =>
      cases known : calls.find? fun call => !call.2.isEmpty with
      | none =>
        obtain rfl := reported.eq_nil known
        refine ⟨[], .concat_first known empty, ?_⟩
        simp [seen_isEmpty_iff.mpr known, ← kept]
      | some first =>
        have seen : (run calls).1.seen.isEmpty = false := by
          rw [Bool.eq_false_iff, Ne, seen_isEmpty_iff, known]
          simp
        refine ⟨_, reported.concat_later known, ?_⟩
        rw [map_append, map_append, kept]
        simp [seen, warning, Function.comp_def]

/-- Over every run of calls, the codes that are kept are those of the table, and the table is the
merge of the tables so far. Every locale that is not in the first table with locales is reported
once, for the first component that has it; the reports come in the order of the components and, for
one component, of the codes. -/
theorem run_agrees (calls : List Call) :
    (∀ n, (run (calls.take n)).1.codes = (run (calls.take n)).1.table.codes ∧
      (run (calls.take n)).1.table = Table.mergeAll ((calls.take n).map Prod.snd)) ∧
    ∃ reports, Reported calls reports ∧ (run calls).2.map some =
      reports.map fun report => calls[report.1]?.map (warning report.2) :=
  ⟨fun n => ⟨codes_run (calls.take n), table_run (calls.take n)⟩, exists_reported calls⟩

end ComponentPack.Localization.Collector
