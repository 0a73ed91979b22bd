import ComponentPack.Proofs.Json.Documents

/-!
The order of members does not count. Documents whose objects have different keys stand for the same
value when members of any objects in them change their places.
-/

set_option autoImplicit false

namespace ComponentPack.Json

open List

theorem ofMembers_of_perm {members members' : List (Text × Json)} (perm : members.Perm members')
    (distinct : members.Pairwise fun a b => a.1 ≠ b.1) :
    Json.ofMembers members = Json.ofMembers members' :=
  congrArg (fun d : Dictionary Text Json => Json.object d.entries)
    (Dictionary.insertAll_of_perm .empty perm distinct)

namespace Source

/-- Either all elements have an image, or the list has none. -/
theorem mapM_eq_filterMap {α β : Type} (f : α → Option β) (elements : List α) :
    elements.mapM f =
      if elements.all fun a => (f a).isSome then some (elements.filterMap f) else none := by
  induction elements with
  | nil => rfl
  | cons a elements ih =>
    rw [mapM_cons, ih, all_cons, filterMap_cons]
    cases f a with
    | none => rfl
    | some b => split <;> simp_all

/-- Members with different keys give different keys. -/
theorem distinct_filterMap {members : List (Spelling × Source)} (shape : Shape) (level : Nat)
    (keys : members.Pairwise fun a b => ∀ key, a.1.value? = some key → b.1.value? ≠ some key) :
    (members.filterMap (pair? shape level)).Pairwise fun a b => a.1 ≠ b.1 := by
  refine keys.filterMap _ fun a a' differ b first b' second same => ?_
  obtain ⟨key, spelled, json, -, rfl⟩ : ∃ key, a.1.value? = some key ∧
      ∃ json, a.2.value? shape level = some json ∧ (key, json) = b := by
    simpa [pair?, Option.bind_eq_some_iff] using first
  obtain ⟨key', spelled', json', -, rfl⟩ : ∃ key, a'.1.value? = some key ∧
      ∃ json, a'.2.value? shape level = some json ∧ (key, json) = b' := by
    simpa [pair?, Option.bind_eq_some_iff] using second
  have same : key = key' := same
  exact differ key spelled (same ▸ spelled')

theorem value?_object_of_perm {members members' : List (Spelling × Source)}
    (perm : members.Perm members')
    (keys : members.Pairwise fun a b => ∀ key, a.1.value? = some key → b.1.value? ≠ some key)
    (shape : Shape) (level : Nat) :
    (object members).value? shape level = (object members').value? shape level := by
  have pairs (item : Shape) : (pairs? item (level + 1) members).map Json.ofMembers =
      (pairs? item (level + 1) members').map Json.ofMembers := by
    have all : members.all (fun entry => (pair? item (level + 1) entry).isSome) =
        members'.all fun entry => (pair? item (level + 1) entry).isSome := by
      rw [Bool.eq_iff_iff, all_eq_true, all_eq_true]
      exact forall_congr' fun entry => imp_congr_left perm.mem_iff
    rw [pairs?_eq, pairs?_eq, mapM_eq_filterMap, mapM_eq_filterMap, all]
    split
    · exact congrArg some (ofMembers_of_perm (perm.filterMap _)
        (distinct_filterMap item (level + 1) keys))
    · rfl
  simp only [value?, pairs]

/-- Documents with different keys that are rearranged stand for the same value, and their keys are
still different. -/
theorem Rearranged.value?_eq {a b : Source} (rearranged : a.Rearranged b) (distinct : a.Distinct) :
    b.Distinct ∧ ∀ shape level, a.value? shape level = b.value? shape level := by
  induction rearranged with
  | refl source => exact ⟨distinct, fun _ _ => rfl⟩
  | trans first second ih ih' =>
    obtain ⟨middle, same⟩ := ih distinct
    obtain ⟨last, same'⟩ := ih' middle
    exact ⟨last, fun shape level => (same shape level).trans (same' shape level)⟩
  | members perm =>
    cases distinct with
    | object keys each =>
      have symmetric {x y : Spelling × Source}
          (differ : ∀ key, x.1.value? = some key → y.1.value? ≠ some key) (key : Text)
          (spelled : y.1.value? = some key) : x.1.value? ≠ some key :=
        fun other => differ key other spelled
      refine ⟨.object ((perm.pairwise_iff symmetric).mp keys) fun entry member => ?_,
        value?_object_of_perm perm keys⟩
      exact each entry (perm.mem_iff.mpr member)
  | inArray before after inner ih =>
    cases distinct with
    | array each =>
      obtain ⟨middle, later⟩ := forall_mem_cons.mp (forall_mem_append.mp each).2
      obtain ⟨inside, same⟩ := ih middle
      refine ⟨.array ?_, fun shape level => ?_⟩
      · exact forall_mem_append.mpr ⟨(forall_mem_append.mp each).1,
          forall_mem_cons.mpr ⟨inside, later⟩⟩
      · simp only [value?, values?_eq, mapM_append, mapM_cons, same]
  | inObject before after key inner ih =>
    cases distinct with
    | object keys each =>
      obtain ⟨middle, later⟩ := forall_mem_cons.mp (forall_mem_append.mp each).2
      obtain ⟨inside, same⟩ := ih middle
      refine ⟨.object ?_ ?_, fun shape level => ?_⟩
      · -- The keys are the same, so that the condition on them is.
        simpa only [pairwise_append, pairwise_cons, forall_mem_cons] using keys
      · exact forall_mem_append.mpr ⟨(forall_mem_append.mp each).1,
          forall_mem_cons.mpr ⟨inside, later⟩⟩
      · simp only [value?, pairs?_eq, mapM_append, mapM_cons, pair?, same]

end Source

end ComponentPack.Json
