import ComponentPack.Dictionary
import Mathlib.Data.List.Basic
import Mathlib.Data.List.Pairwise
import Mathlib.Data.List.Perm.Basic

/-!
Entries and look-ups of dictionaries: an entry is what is looked up under its key, so that keys,
filters and erasures can be told by look-ups.
-/

set_option autoImplicit false

namespace ComponentPack.Dictionary

open List

variable {κ α : Type}

/-- Steps that commute for different keys give the same in any order, if all keys differ. -/
theorem foldl_eq_of_perm {β γ : Type} {step : β → α → β} {key : α → γ}
    (comm : ∀ (start : β) (x y : α), key x ≠ key y →
      step (step start x) y = step (step start y) x)
    {steps steps' : List α} (perm : steps.Perm steps')
    (distinct : steps.Pairwise fun x y => key x ≠ key y) (start : β) :
    steps.foldl step start = steps'.foldl step start := by
  have symmetric : Std.Symm fun x y => key x ≠ key y := ⟨fun _ _ => Ne.symm⟩
  refine perm.foldl_eq' (fun x inside y among start => ?_) start
  by_cases same : x = y
  · rw [same]
  · exact comm start x y (distinct.forall inside among same)

theorem mem_of_lookup [DecidableEq κ] {entries : List (κ × α)} {key : κ} {value : α}
    (found : lookup key entries = some value) : (key, value) ∈ entries := by
  induction entries with
  | nil => simp [lookup] at found
  | cons entry entries ih =>
    rw [lookup] at found
    split at found
    · next same =>
      rw [Option.some.injEq] at found
      rw [← same, ← found]
      exact mem_cons_self
    · exact mem_cons_of_mem entry (ih found)

theorem lookup_of_mem [LT κ] [DecidableEq κ] [Std.Irrefl (α := κ) (· < ·)] {entries : List (κ × α)}
    (ascending : entries.Pairwise fun a b => a.1 < b.1) {key : κ} {value : α}
    (member : (key, value) ∈ entries) : lookup key entries = some value := by
  induction entries with
  | nil => exact absurd member not_mem_nil
  | cons entry entries ih =>
    rw [pairwise_cons] at ascending
    rcases mem_cons.mp member with rfl | member
    · rw [lookup, if_pos rfl]
    · have below : entry.1 < key := ascending.1 _ member
      have other : entry.1 ≠ key := fun same =>
        Std.Irrefl.irrefl (r := (· < ·)) key (same ▸ below)
      rw [lookup, if_neg other, ih ascending.2 member]

section Order

variable [LT κ] [Std.Irrefl (α := κ) (· < ·)]

theorem nodup_keys (d : Dictionary κ α) : d.keys.Nodup := by
  refine pairwise_map.mpr (d.ascending.imp fun {a b} below same => ?_)
  exact Std.Irrefl.irrefl (r := (· < ·)) b.1 (same ▸ below)

variable [DecidableEq κ]

theorem get?_eq_some_iff {d : Dictionary κ α} {key : κ} {value : α} :
    d.get? key = some value ↔ (key, value) ∈ d.entries :=
  ⟨mem_of_lookup, lookup_of_mem d.ascending⟩

theorem mem_keys_iff {d : Dictionary κ α} {key : κ} :
    key ∈ d.keys ↔ ∃ value, d.get? key = some value := by
  simp only [keys, mem_map, Prod.exists, exists_and_right, exists_eq_right, get?_eq_some_iff]

theorem get?_filter (d : Dictionary κ α) (keep : κ → α → Bool) (key : κ) :
    (d.filter keep).get? key = (d.get? key).filter (keep key) := by
  apply Option.ext
  intro value
  rw [get?_eq_some_iff, Option.filter_eq_some_iff, get?_eq_some_iff, filter, mem_filter]

theorem get?_erase (d : Dictionary κ α) (key other : κ) :
    (d.erase key).get? other = if key = other then none else d.get? other := by
  rw [erase, get?_filter]
  split
  · next same => simp [same]
  · next differ =>
    have kept : other ≠ key := Ne.symm differ
    cases d.get? other <;> simp [kept]

section Insert

variable [DecidableLT κ] [Std.Trichotomous (α := κ) (· < ·)]
  [Trans (α := κ) (· < ·) (· < ·) (· < ·)]

/-- The last pair of a key counts. -/
theorem get?_insertAll (d : Dictionary κ α) (pairs : List (κ × α)) (key : κ) :
    (d.insertAll pairs).get? key =
      (pairs.reverse.findSome? fun e => if e.1 = key then some e.2 else none).or (d.get? key) := by
  induction pairs generalizing d with
  | nil => rfl
  | cons e pairs ih =>
    have step : d.insertAll (e :: pairs) = (d.insert e.1 e.2).insertAll pairs := rfl
    rw [step, ih, get?_insert, reverse_cons, List.findSome?_append, Option.or_assoc]
    congr 1
    by_cases same : e.1 = key <;> simp [same]

theorem contains_insertAll (d : Dictionary κ α) (pairs : List (κ × α)) (key : κ) :
    (d.insertAll pairs).contains key = true ↔
      key ∈ pairs.map Prod.fst ∨ d.contains key = true := by
  rw [contains, contains, get?_insertAll, Option.isSome_or, Bool.or_eq_true,
    List.findSome?_isSome_iff]
  refine or_congr_left ⟨?_, fun member => ?_⟩
  · rintro ⟨e, member, some⟩
    split at some
    · next same => exact same ▸ mem_map_of_mem (mem_reverse.mp member)
    · simp at some
  · obtain ⟨e, listed, rfl⟩ := mem_map.mp member
    exact ⟨e, mem_reverse.mpr listed, by simp⟩

/-- Where both dictionaries have an entry, the one that is entered later counts. -/
theorem get?_insertAll_entries (d other : Dictionary κ α) (key : κ) :
    (d.insertAll other.entries).get? key = (other.get? key).or (d.get? key) := by
  rw [get?_insertAll]
  congr 1
  have sound {value : α} (found : (other.entries.reverse.findSome? fun e =>
      if e.1 = key then some e.2 else none) = some value) : other.get? key = some value := by
    obtain ⟨e, member, same⟩ := exists_of_findSome?_eq_some found
    rw [mem_reverse] at member
    split at same
    · next named =>
      rw [get?_eq_some_iff, ← named, ← Option.some.inj same]
      exact member
    · simp at same
  cases found : other.entries.reverse.findSome? fun e => if e.1 = key then some e.2 else none with
  | some value => exact (sound found).symm
  | none =>
    rw [List.findSome?_eq_none_iff] at found
    cases there : other.get? key with
    | none => rfl
    | some value =>
      have := found (key, value) (mem_reverse.mpr (get?_eq_some_iff.mp there))
      simp at this

theorem insertAll_empty_entries (d : Dictionary κ α) : empty.insertAll d.entries = d :=
  ext_get? fun key => by rw [get?_insertAll_entries, get?_empty, Option.or_none]

theorem insert_comm (d : Dictionary κ α) {a b : κ} (other : a ≠ b) (x y : α) :
    (d.insert a x).insert b y = (d.insert b y).insert a x := by
  refine ext_get? fun key => ?_
  simp only [get?_insert]
  by_cases first : a = key
  · have second : b ≠ key := fun same => other (first.trans same.symm)
    simp only [if_pos first, if_neg second]
  · simp only [if_neg first]

/-- Pairs with different keys may be entered in any order. -/
theorem insertAll_of_perm (d : Dictionary κ α) {pairs pairs' : List (κ × α)}
    (perm : pairs.Perm pairs') (distinct : pairs.Pairwise fun a b => a.1 ≠ b.1) :
    d.insertAll pairs = d.insertAll pairs' :=
  foldl_eq_of_perm (fun d _ _ other => d.insert_comm other _ _) perm distinct d

omit [Std.Irrefl (α := κ) (· < ·)] [DecidableEq κ] in
theorem mem_insertAll {d : Dictionary κ α} {pairs : List (κ × α)} {entry : κ × α}
    (member : entry ∈ (d.insertAll pairs).entries) : entry ∈ d.entries ∨ entry ∈ pairs := by
  induction pairs generalizing d with
  | nil => exact .inl member
  | cons pair pairs ih =>
    rcases ih member with inside | later
    · rcases mem_insertEntry inside with rfl | before
      · exact .inr mem_cons_self
      · exact .inl before
    · exact .inr (mem_cons_of_mem pair later)

omit [Std.Irrefl (α := κ) (· < ·)] [DecidableEq κ] in
theorem mem_of_mem_ofList {pairs : List (κ × α)} {entry : κ × α}
    (member : entry ∈ (ofList pairs).entries) : entry ∈ pairs :=
  (mem_insertAll member).resolve_left not_mem_nil

end Insert

theorem contains_iff_mem_keys {d : Dictionary κ α} {key : κ} :
    d.contains key = true ↔ key ∈ d.keys := by
  rw [contains, Option.isSome_iff_exists, mem_keys_iff]

omit [DecidableEq κ] in
/-- The keys of a dictionary are in one order. -/
theorem keys_eq_of_mem_iff {β : Type} [Std.Asymm (α := κ) (· < ·)] {d : Dictionary κ α}
    {other : Dictionary κ β} (same : ∀ key, key ∈ d.keys ↔ key ∈ other.keys) :
    d.keys = other.keys := by
  have below : d.keys.Pairwise (· < ·) := pairwise_map.mpr d.ascending
  have below' : other.keys.Pairwise (· < ·) := pairwise_map.mpr other.ascending
  refine List.Perm.eq_of_pairwise ?_ below below' ?_
  · exact fun a b _ _ below above => absurd above (Std.Asymm.asymm (r := (· < ·)) a b below)
  · exact (perm_ext_iff_of_nodup d.nodup_keys other.nodup_keys).mpr same

end Order

end ComponentPack.Dictionary
