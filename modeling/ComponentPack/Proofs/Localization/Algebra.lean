import ComponentPack.Proofs.Localization.Merge

/-!
The algebra of merging. A table is told by its codes and its messages, so that each law of `merge`
comes down to a law of unions and one of first choices. Codes and messages are compared apart,
because a locale without messages is seen in the codes only.
-/

set_option autoImplicit false

namespace ComponentPack.Localization.Table

variable {a b : Table}

theorem ext_get? (codes : ∀ code, code ∈ a.codes ↔ code ∈ b.codes)
    (values : ∀ code key, a.get? code key = b.get? code key) : a = b := by
  apply ext_messages?
  intro code
  have known := codes code
  have same := values code
  simp only [mem_codes_iff] at known
  simp only [get?] at same
  cases first : a.messages? code with
  | none =>
    cases second : b.messages? code with
    | none => rfl
    | some messages =>
      obtain ⟨_, found⟩ := known.mpr ⟨messages, second⟩
      rw [first] at found
      cases found
  | some messages =>
    obtain ⟨others, found⟩ := known.mp ⟨messages, first⟩
    rw [first, found] at same
    rw [found]
    exact congrArg some (Dictionary.ext_get? same)

theorem not_mem_codes_empty (code : Text) : code ∉ empty.codes := List.not_mem_nil

theorem get?_empty (code key : Text) : empty.get? code key = none := rfl

theorem merge_assoc (a b c : Table) : (a.merge b).merge c = a.merge (b.merge c) := by
  apply ext_get?
  · intro code
    simp only [mem_codes_merge, or_assoc]
  · intro code key
    simp only [get?_merge, Option.or_assoc]

theorem merge_merge_self (a b : Table) : (a.merge b).merge b = a.merge b := by
  apply ext_get?
  · intro code
    simp only [mem_codes_merge, or_assoc, or_self]
  · intro code key
    simp only [get?_merge, ← Option.or_assoc, Option.or_self]

theorem merge_empty (a : Table) : a.merge empty = a := by
  apply ext_get?
  · intro code
    simp only [mem_codes_merge, not_mem_codes_empty, or_false]
  · intro code key
    rw [get?_merge, get?_empty, Option.none_or]

theorem empty_merge (a : Table) : empty.merge a = a := by
  apply ext_get?
  · intro code
    simp only [mem_codes_merge, not_mem_codes_empty, false_or]
  · intro code key
    rw [get?_merge, get?_empty, Option.or_none]

/-- Two tables have the same value wherever both have one. -/
def Agree (a b : Table) : Prop :=
  ∀ code key x y, a.get? code key = some x → b.get? code key = some y → x = y

theorem merge_comm_iff : a.merge b = b.merge a ↔ Agree a b := by
  constructor
  · intro same code key x y first second
    have value := congrArg (fun table => table.get? code key) same
    simp only [get?_merge, first, second, Option.some_or, Option.some.injEq] at value
    exact value.symm
  · intro agree
    apply ext_get?
    · intro code
      simp only [mem_codes_merge, or_comm]
    · intro code key
      have common := agree code key
      rw [get?_merge, get?_merge]
      cases first : a.get? code key with
      | none => rw [Option.or_none, Option.none_or]
      | some x =>
        cases second : b.get? code key with
        | none => rw [Option.or_none, Option.none_or]
        | some y => rw [Option.some_or, Option.some_or, common x y first second]

theorem mem_codes_project {table : Table} {code other : Text} :
    other ∈ (table.project code).codes ↔ other = code ∧ code ∈ table.codes := by
  simp only [mem_codes_iff, messages?_project]
  by_cases same : code = other
  · simp [same]
  · simp [same, Ne.symm same]

theorem get?_project (table : Table) (code other key : Text) :
    (table.project code).get? other key = if code = other then table.get? other key else none := by
  rw [get?, messages?_project]
  split <;> rfl

theorem project_merge (a b : Table) (code : Text) :
    (a.merge b).project code = (a.project code).merge (b.project code) := by
  apply ext_get?
  · intro other
    simp only [mem_codes_project, mem_codes_merge, and_or_left]
  · intro other key
    rw [get?_project, get?_merge, get?_merge, get?_project, get?_project]
    split <;> rfl

/-- Merging is the union of two tables in which the second one wins: it is associative, idempotent
and has the empty table as its identity, it commutes exactly if the tables agree, it goes through to
the single locales, and these give a table back in any order. Locales count by their codes, also
without any message. -/
theorem merge_lastWins (a b c : Table) :
    (∀ code, code ∈ (a.merge b).codes ↔ code ∈ a.codes ∨ code ∈ b.codes) ∧
    (∀ code key, (a.merge b).get? code key = (b.get? code key).or (a.get? code key)) ∧
    (a.merge b).merge c = a.merge (b.merge c) ∧
    (a.merge b).merge b = a.merge b ∧
    (a.merge empty = a ∧ empty.merge a = a) ∧
    (a.merge b = b.merge a ↔ Agree a b) ∧
    (∀ code, (a.merge b).project code = (a.project code).merge (b.project code)) ∧
    (∀ code other, other ∈ (a.project code).codes ↔ other = code ∧ code ∈ a.codes) ∧
    ∀ order : List Text, order.Perm a.codes → mergeAll (order.map a.project) = a := by
  refine ⟨fun code => mem_codes_merge, get?_merge a b, merge_assoc a b c, merge_merge_self a b,
    ⟨merge_empty a, empty_merge a⟩, merge_comm_iff, project_merge a b,
    fun code other => mem_codes_project, ?_⟩
  intro order listed
  exact mergeAll_project_of_perm a listed

/-- One message in English, and a French locale that has none yet. -/
def untranslated : Table :=
  (empty.insert "en" "hi" (.string "Hi")).insertMessages "fr" []

theorem merge_lastWins_untranslated :
    untranslated.codes = ["en".toList, "fr".toList] ∧
      mergeAll (["fr".toList, "en".toList].map untranslated.project) = untranslated := by
  have listed : untranslated.codes = ["en".toList, "fr".toList] := by decide
  obtain ⟨-, -, -, -, -, -, -, -, again⟩ := merge_lastWins untranslated empty empty
  refine ⟨listed, again _ ?_⟩
  rw [listed]
  exact List.Perm.swap _ _ _

end ComponentPack.Localization.Table
