/-!
Dictionaries kept in the order of their keys. Two dictionaries with the same look-ups are equal
(`Dictionary.ext_get?`), because the entries are strictly ascending.
-/

namespace ComponentPack

/-- A finite map whose entries stand in strictly ascending order of their keys. -/
structure Dictionary (κ α : Type) [LT κ] where
  entries : List (κ × α)
  ascending : entries.Pairwise fun a b => a.1 < b.1

namespace Dictionary

variable {κ α : Type}

/-- Puts an entry in its place among ascending entries; an entry with the same key is replaced. -/
def insertEntry [LT κ] [DecidableLT κ] (key : κ) (value : α) : List (κ × α) → List (κ × α)
  | [] => [(key, value)]
  | (k, v) :: rest =>
    if key < k then (key, value) :: (k, v) :: rest
    else if k < key then (k, v) :: insertEntry key value rest
    else (key, value) :: rest

def lookup [DecidableEq κ] (key : κ) : List (κ × α) → Option α
  | [] => none
  | (k, v) :: rest => if k = key then some v else lookup key rest

variable [LT κ]

theorem mem_insertEntry [DecidableLT κ] {key : κ} {value : α} {entry : κ × α}
    {entries : List (κ × α)} (h : entry ∈ insertEntry key value entries) :
    entry = (key, value) ∨ entry ∈ entries := by
  induction entries with
  | nil => simpa [insertEntry] using h
  | cons e rest ih =>
    obtain ⟨k, v⟩ := e
    rw [insertEntry] at h
    split at h
    · simpa using h
    · split at h
      · rcases List.mem_cons.1 h with h | h
        · exact .inr (h ▸ List.mem_cons_self)
        · exact (ih h).imp_right (List.mem_cons_of_mem _)
      · rcases List.mem_cons.1 h with h | h
        · exact .inl h
        · exact .inr (List.mem_cons_of_mem _ h)

section Order

variable [DecidableLT κ] [Std.Trichotomous (α := κ) (· < ·)]
  [Trans (α := κ) (· < ·) (· < ·) (· < ·)]

theorem pairwise_insertEntry (key : κ) (value : α) {entries : List (κ × α)}
    (h : entries.Pairwise fun a b => a.1 < b.1) :
    (insertEntry key value entries).Pairwise fun a b => a.1 < b.1 := by
  induction entries with
  | nil => simp [insertEntry]
  | cons e rest ih =>
    obtain ⟨k, v⟩ := e
    rw [List.pairwise_cons] at h
    rw [insertEntry]
    split
    next hlt =>
      refine List.pairwise_cons.2 ⟨fun a ha => ?_, List.pairwise_cons.2 h⟩
      rcases List.mem_cons.1 ha with rfl | ha
      · exact hlt
      · exact Trans.trans hlt (h.1 a ha)
    next hlt =>
      split
      next hgt =>
        refine List.pairwise_cons.2 ⟨fun a ha => ?_, ih h.2⟩
        rcases mem_insertEntry ha with rfl | ha
        · exact hgt
        · exact h.1 a ha
      next hgt =>
        have hk : key = k := Std.Trichotomous.trichotomous (r := (· < ·)) key k hlt hgt
        exact List.pairwise_cons.2 ⟨fun a ha => hk ▸ h.1 a ha, h.2⟩

end Order

def empty : Dictionary κ α := ⟨[], .nil⟩

instance : Inhabited (Dictionary κ α) := ⟨empty⟩

def isEmpty (d : Dictionary κ α) : Bool := d.entries.isEmpty

def size (d : Dictionary κ α) : Nat := d.entries.length

def keys (d : Dictionary κ α) : List κ := d.entries.map Prod.fst

def get? [DecidableEq κ] (d : Dictionary κ α) (key : κ) : Option α := lookup key d.entries

def contains [DecidableEq κ] (d : Dictionary κ α) (key : κ) : Bool := (d.get? key).isSome

def filter (d : Dictionary κ α) (keep : κ → α → Bool) : Dictionary κ α :=
  ⟨d.entries.filter fun e => keep e.1 e.2, d.ascending.filter _⟩

def erase [DecidableEq κ] (d : Dictionary κ α) (key : κ) : Dictionary κ α :=
  d.filter fun k _ => k ≠ key

section Order

variable [DecidableLT κ] [Std.Trichotomous (α := κ) (· < ·)]
  [Trans (α := κ) (· < ·) (· < ·) (· < ·)]

def insert (d : Dictionary κ α) (key : κ) (value : α) : Dictionary κ α :=
  ⟨insertEntry key value d.entries, pairwise_insertEntry key value d.ascending⟩

/-- Enters a list of pairs from left to right, so that the last pair of a key counts. -/
def insertAll (d : Dictionary κ α) (pairs : List (κ × α)) : Dictionary κ α :=
  pairs.foldl (fun d e => d.insert e.1 e.2) d

def ofList (pairs : List (κ × α)) : Dictionary κ α := empty.insertAll pairs

end Order

section Laws

variable [DecidableEq κ]

private theorem lookup_eq_none_of_lt [Std.Irrefl (α := κ) (· < ·)] {key : κ}
    {entries : List (κ × α)} (h : ∀ e ∈ entries, key < e.1) : lookup key entries = none := by
  induction entries with
  | nil => rfl
  | cons e rest ih =>
    have hne : e.1 ≠ key := fun hk =>
      Std.Irrefl.irrefl (r := (· < ·)) key (hk ▸ h e List.mem_cons_self)
    rw [lookup, if_neg hne]
    exact ih fun a ha => h a (List.mem_cons_of_mem _ ha)

private theorem entries_eq_of_lookup_eq [Std.Irrefl (α := κ) (· < ·)]
    [Std.Trichotomous (α := κ) (· < ·)] [Trans (α := κ) (· < ·) (· < ·) (· < ·)]
    {xs ys : List (κ × α)} (hx : xs.Pairwise fun a b => a.1 < b.1)
    (hy : ys.Pairwise fun a b => a.1 < b.1) (h : ∀ key, lookup key xs = lookup key ys) :
    xs = ys := by
  induction xs generalizing ys with
  | nil =>
    cases ys with
    | nil => rfl
    | cons e rest => simpa [lookup] using h e.1
  | cons a as ih =>
    cases ys with
    | nil => simpa [lookup] using h a.1
    | cons b bs =>
      rw [List.pairwise_cons] at hx hy
      have hab : ¬ a.1 < b.1 := fun hlt => by
        have hnone : lookup a.1 (b :: bs) = none := lookup_eq_none_of_lt fun e he => by
          rcases List.mem_cons.1 he with rfl | he
          · exact hlt
          · exact Trans.trans hlt (hy.1 e he)
        simpa [lookup] using (h a.1).trans hnone
      have hba : ¬ b.1 < a.1 := fun hlt => by
        have hnone : lookup b.1 (a :: as) = none := lookup_eq_none_of_lt fun e he => by
          rcases List.mem_cons.1 he with rfl | he
          · exact hlt
          · exact Trans.trans hlt (hx.1 e he)
        simpa [lookup] using (h b.1).symm.trans hnone
      have hkey : a.1 = b.1 := Std.Trichotomous.trichotomous (r := (· < ·)) _ _ hab hba
      have hvalue : a.2 = b.2 := by simpa [lookup, hkey] using h a.1
      have hrest : as = bs := ih hx.2 hy.2 fun key => by
        by_cases hk : a.1 = key
        · subst hk
          rw [lookup_eq_none_of_lt hx.1, lookup_eq_none_of_lt (hkey ▸ hy.1)]
        · simpa [lookup, hk, hkey ▸ hk] using h key
      rw [hrest, Prod.ext hkey hvalue]

theorem ext_get? [Std.Irrefl (α := κ) (· < ·)] [Std.Trichotomous (α := κ) (· < ·)]
    [Trans (α := κ) (· < ·) (· < ·) (· < ·)] {a b : Dictionary κ α}
    (h : ∀ key, a.get? key = b.get? key) : a = b := by
  obtain ⟨xs, hx⟩ := a
  obtain ⟨ys, hy⟩ := b
  obtain rfl : xs = ys := entries_eq_of_lookup_eq hx hy h
  rfl

@[simp] theorem get?_empty (key : κ) : (empty : Dictionary κ α).get? key = none := rfl

variable [DecidableLT κ] [Std.Irrefl (α := κ) (· < ·)] [Std.Trichotomous (α := κ) (· < ·)]

private theorem lookup_insertEntry (key : κ) (value : α) (entries : List (κ × α)) (other : κ) :
    lookup other (insertEntry key value entries) =
      if key = other then some value else lookup other entries := by
  induction entries with
  | nil => rfl
  | cons e rest ih =>
    obtain ⟨k, v⟩ := e
    rw [insertEntry]
    split
    · rfl
    · next hlt =>
      split
      · next hgt =>
        have hne : key ≠ k := fun hk => Std.Irrefl.irrefl (r := (· < ·)) k (hk ▸ hgt)
        by_cases hk : k = other
        · subst hk; simp [lookup, hne]
        · simp [lookup, hk, ih]
      · next hgt =>
        obtain rfl : key = k := Std.Trichotomous.trichotomous (r := (· < ·)) key k hlt hgt
        by_cases hk : key = other <;> simp [lookup, hk]

@[simp] theorem get?_insert [Trans (α := κ) (· < ·) (· < ·) (· < ·)] (d : Dictionary κ α)
    (key : κ) (value : α) (other : κ) :
    (d.insert key value).get? other = if key = other then some value else d.get? other :=
  lookup_insertEntry key value d.entries other

end Laws

instance [DecidableEq κ] [DecidableEq α] : DecidableEq (Dictionary κ α) := fun a b =>
  if h : a.entries = b.entries then
    .isTrue (by cases a; cases b; cases h; rfl)
  else .isFalse fun e => h (e ▸ rfl)

end Dictionary

end ComponentPack
