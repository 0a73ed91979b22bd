import Mathlib
import ComponentPack.Compiler.Compiled
import ComponentPack.Proofs.Text.Blanks

/-!
Outcomes matched to requests. What counts for a path is the last outcome that has its parts, and an
answered request takes the outcomes of its path away. So a row of requests is settled exactly if
their paths differ and each of them has a last outcome that carries an answer; a batch fails at the
first request that is not settled with those before it.
-/

set_option autoImplicit false

namespace ComponentPack.Compiler.Compiled

open List

variable {outcome : Outcome} {artifact : Artifact}

variable {outcomes others : List Outcome} {path : Path} {requests : List Request}

/-- The answer in an outcome: its error, or without one the code, if that is not blank. -/
def Carries (outcome : Outcome) (artifact : Artifact) : Prop :=
  (∃ error, outcome.error = some error ∧ artifact = .error error) ∨
    outcome.error = none ∧ ∃ code, outcome.code = some code ∧
      (∃ c ∈ code, Text.isBlank c = false) ∧ artifact = .ok code

theorem artifact?_eq_some_iff : artifact? outcome = some artifact ↔ Carries outcome artifact := by
  obtain ⟨path, code, error⟩ := outcome
  cases error with
  | some error =>
    constructor
    · intro found
      exact .inl ⟨error, rfl, (Option.some.inj found).symm⟩
    · rintro (⟨_, ⟨⟩, rfl⟩ | ⟨⟨⟩, -⟩)
      rfl
  | none =>
    cases code with
    | none =>
      constructor
      · rintro ⟨⟩
      · rintro (⟨_, ⟨⟩, -⟩ | ⟨-, _, ⟨⟩, -⟩)
    | some code =>
      have blank : (Text.trim code).isEmpty = true ↔ ¬ ∃ c ∈ code, Text.isBlank c = false := by
        simp [Text.trim_eq_nil_iff]
      change (if (Text.trim code).isEmpty = true then none else
        some (Except.ok code : Artifact)) = _ ↔ _
      split
      · next empty =>
        constructor
        · rintro ⟨⟩
        · rintro (⟨_, ⟨⟩, -⟩ | ⟨-, _, ⟨⟩, shown, -⟩)
          exact absurd shown (blank.mp empty)
      · next filled =>
        have shown := not_not.mp (mt blank.mpr filled)
        constructor
        · intro found
          exact .inr ⟨rfl, code, rfl, shown, (Option.some.inj found).symm⟩
        · rintro (⟨_, ⟨⟩, -⟩ | ⟨-, _, ⟨⟩, -, rfl⟩)
          rfl

/-- The last outcome with the parts of a path. -/
def IsLast (outcomes : List Outcome) (path : Path) (outcome : Outcome) : Prop :=
  ∃ before after, outcomes = before ++ outcome :: after ∧ outcome.path.parts = path.parts ∧
    ∀ later ∈ after, later.path.parts ≠ path.parts

theorem lastOutcome?_eq_some_iff :
    lastOutcome? outcomes path = some outcome ↔ IsLast outcomes path outcome := by
  rw [lastOutcome?, List.find?_eq_some_iff_append]
  simp only [Path.equivalent, decide_eq_true_eq, Bool.not_eq_true', decide_eq_false_iff_not]
  constructor
  · rintro ⟨same, after, before, split, other⟩
    refine ⟨before.reverse, after.reverse, ?_, same, ?_⟩
    · rw [← reverse_reverse outcomes, split]
      simp
    · intro later member
      exact other later (mem_reverse.mp member)
  · rintro ⟨before, after, rfl, same, other⟩
    refine ⟨same, after.reverse, before.reverse, by simp, ?_⟩
    intro later member
    exact other later (mem_reverse.mp member)

/-- The outcomes of a path are gone once they are used, and the others stay. -/
theorem lastOutcome?_without (outcomes : List Outcome) (path other : Path) :
    lastOutcome? (without outcomes path) other =
      if path.parts = other.parts then none else lastOutcome? outcomes other := by
  rw [lastOutcome?, without, ← filter_reverse, List.find?_filter]
  split
  · next same =>
    rw [List.find?_eq_none]
    intro outcome _
    simp [Path.equivalent, same]
  · next differ =>
    rw [lastOutcome?]
    congr 1
    funext outcome
    by_cases found : outcome.path.parts = other.parts
    · simp [Path.equivalent, found, Ne.symm differ]
    · simp [Path.equivalent, found]

/-- What the outcomes answer for a path. -/
def Answered (outcomes : List Outcome) (path : Path) (artifact : Artifact) : Prop :=
  ∃ outcome, IsLast outcomes path outcome ∧ Carries outcome artifact

theorem bind_artifact?_eq_some_iff :
    (lastOutcome? outcomes path).bind artifact? = some artifact ↔
      Answered outcomes path artifact := by
  rw [Option.bind_eq_some_iff]
  simp only [lastOutcome?_eq_some_iff, artifact?_eq_some_iff, Answered]

theorem answered_congr {other : Path} (same : path.parts = other.parts) (artifact : Artifact) :
    Answered outcomes path artifact ↔ Answered outcomes other artifact := by
  simp only [Answered, IsLast, same]

theorem answered_without {used : Path} :
    Answered (without outcomes used) path artifact ↔
      used.parts ≠ path.parts ∧ Answered outcomes path artifact := by
  rw [← bind_artifact?_eq_some_iff, lastOutcome?_without, ← bind_artifact?_eq_some_iff]
  split
  · next same => simp [same]
  · next differ => simp [differ]

/-- Requests that can all be answered. -/
structure Settled (requests : List Request) (outcomes : List Outcome) : Prop where
  distinct : requests.Pairwise fun a b => a.path.parts ≠ b.path.parts
  answered : ∀ request ∈ requests, ∃ artifact, Answered outcomes request.path artifact

theorem Settled.nil : Settled [] outcomes := ⟨List.Pairwise.nil, by simp⟩

theorem settled_cons_iff {request : Request} :
    Settled (request :: requests) outcomes ↔
      (∃ artifact, Answered outcomes request.path artifact) ∧
        Settled requests (without outcomes request.path) := by
  constructor
  · rintro ⟨distinct, answered⟩
    obtain ⟨apart, distinct⟩ := pairwise_cons.mp distinct
    refine ⟨answered request mem_cons_self, distinct, ?_⟩
    intro later member
    obtain ⟨artifact, answer⟩ := answered later (mem_cons_of_mem request member)
    exact ⟨artifact, answered_without.mpr ⟨apart later member, answer⟩⟩
  · rintro ⟨first, distinct, answered⟩
    refine ⟨pairwise_cons.mpr ⟨?_, distinct⟩, forall_mem_cons.mpr ⟨first, ?_⟩⟩
    · intro later member
      obtain ⟨artifact, answer⟩ := answered later member
      exact (answered_without.mp answer).1
    · intro later member
      obtain ⟨artifact, answer⟩ := answered later member
      exact ⟨artifact, (answered_without.mp answer).2⟩

/-- One step: the first request is answered, or the batch fails at it. -/
theorem answers_cons (request : Request) (requests : List Request) (outcomes : List Outcome) :
    (∃ artifact, Answered outcomes request.path artifact ∧
      answers (request :: requests) outcomes =
        (answers requests (without outcomes request.path)).map ((request.path, artifact) :: ·)) ∨
    (¬ (∃ artifact, Answered outcomes request.path artifact) ∧
      answers (request :: requests) outcomes = .error (.missingArtifact request.path.text)) := by
  cases found : (lastOutcome? outcomes request.path).bind artifact? with
  | some artifact =>
    left
    refine ⟨artifact, bind_artifact?_eq_some_iff.mp found, ?_⟩
    rw [answers, found]
    cases answers requests (without outcomes request.path) <;> rfl
  | none =>
    right
    constructor
    · rintro ⟨artifact, answer⟩
      rw [← bind_artifact?_eq_some_iff, found] at answer
      cases answer
    · rw [answers, found]

theorem exists_answers_iff :
    (∃ artifacts, answers requests outcomes = .ok artifacts) ↔ Settled requests outcomes := by
  induction requests generalizing outcomes with
  | nil => exact ⟨fun _ => .nil, fun _ => ⟨[], rfl⟩⟩
  | cons request requests ih =>
    rw [settled_cons_iff, ← ih]
    rcases answers_cons request requests outcomes with ⟨artifact, answer, step⟩ | ⟨missing, step⟩
    · rw [step]
      cases answers requests (without outcomes request.path) with
      | error e => simp [Except.map]
      | ok rest => simpa [Except.map] using ⟨artifact, answer⟩
    · simp [step, missing]

/-- The first request that is not settled with those before it. -/
theorem answers_eq_error_iff {e : CompilerError} :
    answers requests outcomes = .error e ↔
      ∃ before request after, requests = before ++ request :: after ∧
        Settled before outcomes ∧ ¬ Settled (before ++ [request]) outcomes ∧
        e = .missingArtifact request.path.text := by
  induction requests generalizing outcomes with
  | nil => simp [answers]
  | cons first requests ih =>
    rcases answers_cons first requests outcomes with ⟨artifact, answer, step⟩ | ⟨missing, step⟩
    · have later : answers (first :: requests) outcomes = .error e ↔
          answers requests (without outcomes first.path) = .error e := by
        rw [step]
        cases answers requests (without outcomes first.path) <;> simp [Except.map]
      rw [later, ih]
      constructor
      · rintro ⟨before, request, after, rfl, settled, unsettled, named⟩
        refine ⟨first :: before, request, after, rfl, settled_cons_iff.mpr ⟨⟨_, answer⟩, settled⟩,
          ?_, named⟩
        intro both
        exact unsettled (settled_cons_iff.mp both).2
      · rintro ⟨before, request, after, split, settled, unsettled, named⟩
        cases before with
        | nil =>
          obtain ⟨rfl, rfl⟩ := List.cons.inj split
          exact absurd (settled_cons_iff.mpr ⟨⟨_, answer⟩, .nil⟩) unsettled
        | cons head before =>
          obtain ⟨rfl, rfl⟩ := List.cons.inj split
          refine ⟨before, request, after, rfl, (settled_cons_iff.mp settled).2, ?_, named⟩
          intro rest
          exact unsettled (settled_cons_iff.mpr ⟨⟨_, answer⟩, rest⟩)
    · rw [step, Except.error.injEq]
      constructor
      · rintro rfl
        refine ⟨[], first, requests, rfl, .nil, ?_, rfl⟩
        intro single
        exact missing (settled_cons_iff.mp single).1
      · rintro ⟨before, request, after, split, settled, -, rfl⟩
        cases before with
        | nil =>
          obtain ⟨rfl, -⟩ := List.cons.inj split
          rfl
        | cons head before =>
          obtain ⟨rfl, -⟩ := List.cons.inj split
          exact absurd (settled_cons_iff.mp settled).1 missing

theorem of_answers {artifacts : List (Path × Artifact)}
    (done : answers requests outcomes = .ok artifacts) :
    artifacts.map Prod.fst = requests.map Request.path ∧
      ∀ entry ∈ artifacts, Answered outcomes entry.1 entry.2 := by
  induction requests generalizing outcomes artifacts with
  | nil =>
    cases done
    exact ⟨rfl, by simp⟩
  | cons request requests ih =>
    rcases answers_cons request requests outcomes with ⟨artifact, answer, step⟩ | ⟨-, step⟩
    · rw [step] at done
      cases later : answers requests (without outcomes request.path) with
      | error e =>
        rw [later] at done
        cases done
      | ok rest =>
        rw [later] at done
        cases done
        obtain ⟨keys, values⟩ := ih later
        refine ⟨congrArg (request.path :: ·) keys, forall_mem_cons.mpr ⟨answer, ?_⟩⟩
        intro entry member
        exact (answered_without.mp (values entry member)).2
    · rw [step] at done
      cases done

theorem answered_unique {artifact' : Artifact} (answer : Answered outcomes path artifact)
    (answer' : Answered outcomes path artifact') : artifact = artifact' := by
  rw [← bind_artifact?_eq_some_iff] at answer answer'
  rw [answer] at answer'
  exact Option.some.inj answer'

theorem get?_of_answers {artifacts : List (Path × Artifact)}
    (done : answers requests outcomes = .ok artifacts) (path : Path) (artifact : Artifact) :
    (⟨artifacts⟩ : Compiled).get? path = some artifact ↔
      (∃ request ∈ requests, request.path.parts = path.parts) ∧
        Answered outcomes path artifact := by
  obtain ⟨keys, values⟩ := of_answers done
  have named : (∃ request ∈ requests, request.path.parts = path.parts) ↔
      ∃ entry ∈ artifacts, entry.1.parts = path.parts := by
    have both : (∃ key ∈ requests.map Request.path, key.parts = path.parts) ↔
        ∃ key ∈ artifacts.map Prod.fst, key.parts = path.parts := by rw [keys]
    simpa using both
  have sound : ∀ value, (⟨artifacts⟩ : Compiled).get? path = some value →
      (∃ request ∈ requests, request.path.parts = path.parts) ∧
        Answered outcomes path value := by
    intro value found
    obtain ⟨⟨key, value⟩, hit, rfl⟩ := Option.map_eq_some_iff.mp found
    have member := mem_of_find?_eq_some hit
    have same : key.parts = path.parts := by simpa [Path.equivalent] using List.find?_some hit
    exact ⟨named.mpr ⟨_, member, same⟩, (answered_congr same _).mp (values _ member)⟩
  refine ⟨sound artifact, ?_⟩
  rintro ⟨asked, answer⟩
  cases found : (⟨artifacts⟩ : Compiled).get? path with
  | some value => exact congrArg some (answered_unique (sound value found).2 answer)
  | none =>
    obtain ⟨entry, member, same⟩ := named.mp asked
    have missed := List.find?_eq_none.mp (Option.map_eq_none_iff.mp found) entry member
    simp [Path.equivalent, same] at missed

theorem answers_congr (same : ∀ path, lastOutcome? outcomes path = lastOutcome? others path) :
    answers requests outcomes = answers requests others := by
  induction requests generalizing outcomes others with
  | nil => rfl
  | cons request requests ih =>
    have later : answers requests (without outcomes request.path) =
        answers requests (without others request.path) := by
      apply ih
      intro path
      rw [lastOutcome?_without, lastOutcome?_without, same]
    rw [answers, answers, same, later]

theorem isLast_iff_mem (distinct : outcomes.Pairwise fun a b => a.path.parts ≠ b.path.parts) :
    IsLast outcomes path outcome ↔ outcome ∈ outcomes ∧ outcome.path.parts = path.parts := by
  constructor
  · rintro ⟨before, after, rfl, same, -⟩
    exact ⟨by simp, same⟩
  · rintro ⟨member, same⟩
    obtain ⟨before, after, rfl⟩ := append_of_mem member
    refine ⟨before, after, rfl, same, ?_⟩
    intro later among again
    have apart := (pairwise_cons.mp (pairwise_append.mp distinct).2.1).1 later among
    exact apart (same.trans again.symm)

theorem lastOutcome?_of_perm (order : outcomes.Perm others)
    (distinct : outcomes.Pairwise fun a b => a.path.parts ≠ b.path.parts) (path : Path) :
    lastOutcome? outcomes path = lastOutcome? others path := by
  have distinct' : others.Pairwise fun a b => a.path.parts ≠ b.path.parts :=
    (order.pairwise_iff fun apart => Ne.symm apart).mp distinct
  apply Option.ext
  intro outcome
  rw [lastOutcome?_eq_some_iff, lastOutcome?_eq_some_iff, isLast_iff_mem distinct,
    isLast_iff_mem distinct', order.mem_iff]

/-- A batch is compiled exactly if its requests are settled. Then each of its paths, however it is
spelled, has what its last outcome carries, and no other path has an answer; otherwise the first
request is named at which settling fails. The order of outcomes with different paths is of no
account. -/
theorem ofOutcomes_settled (batch : Batch) (outcomes : List Outcome) :
    ((∃ compiled, ofOutcomes batch outcomes = .ok compiled) ↔
      Settled batch.components outcomes) ∧
    (∀ compiled, ofOutcomes batch outcomes = .ok compiled →
      compiled.size = batch.components.length ∧
      ∀ path artifact, compiled.get? path = some artifact ↔
        (∃ request ∈ batch.components, request.path.parts = path.parts) ∧
          Answered outcomes path artifact) ∧
    (∀ e, ofOutcomes batch outcomes = .error e ↔
      ∃ before request after, batch.components = before ++ request :: after ∧
        Settled before outcomes ∧ ¬ Settled (before ++ [request]) outcomes ∧
        e = .missingArtifact request.path.text) ∧
    ∀ others : List Outcome, outcomes.Perm others →
      (outcomes.Pairwise fun a b => a.path.parts ≠ b.path.parts) →
      ofOutcomes batch outcomes = ofOutcomes batch others := by
  refine ⟨?settled, ?found, ?failed, ?reordered⟩
  case settled =>
    rw [← exists_answers_iff, ofOutcomes]
    cases answers batch.components outcomes <;> simp
  case found =>
    intro compiled done
    rw [ofOutcomes] at done
    cases answered : answers batch.components outcomes with
    | error e =>
      rw [answered] at done
      cases done
    | ok artifacts =>
      rw [answered] at done
      cases done
      have size := congrArg List.length (of_answers answered).1
      rw [List.length_map, List.length_map] at size
      exact ⟨size, get?_of_answers answered⟩
  case failed =>
    intro e
    rw [← answers_eq_error_iff, ofOutcomes]
    cases answers batch.components outcomes <;> simp
  case reordered =>
    intro others order distinct
    rw [ofOutcomes, ofOutcomes, answers_congr (lastOutcome?_of_perm order distinct)]

/-- Two requests, the first one with a doubled slash. -/
def pair : Batch where
  components := [⟨.ofString "a//one.vue", [], []⟩, ⟨.ofString "two.vue", [], []⟩]

/-- Their outcomes in another order, one path with a dot inside. -/
def replies : List Outcome :=
  [⟨.ofString "two.vue", none, some []⟩, ⟨.ofString "a/./one.vue", some ['x'], none⟩]

theorem ofOutcomes_settled_pair : ∃ compiled, ofOutcomes pair replies = .ok compiled ∧
    compiled.size = 2 ∧ compiled.get? (.ofString "a/one.vue/") = some (.ok ['x']) ∧
    ofOutcomes pair replies.reverse = .ok compiled := by
  obtain ⟨-, found, -, reordered⟩ := ofOutcomes_settled pair replies
  have done : ofOutcomes pair replies = .ok ⟨[(.ofString "a//one.vue", .ok ['x']),
      (.ofString "two.vue", .error [])]⟩ := by cbv
  have distinct : replies.Pairwise fun a b => a.path.parts ≠ b.path.parts := by decide
  have again := reordered _ (List.reverse_perm replies).symm distinct
  have spelled : (Path.ofString "a//one.vue").parts = (Path.ofString "a/one.vue/").parts := by
    decide
  have dotted : (Path.ofString "a/./one.vue").parts = (Path.ofString "a/one.vue/").parts := by
    decide
  have last : Answered replies (.ofString "a/one.vue/") (.ok ['x']) :=
    ⟨_, ⟨[_], [], rfl, dotted, by simp⟩, .inr ⟨rfl, ['x'], rfl, ⟨'x', by simp, by decide⟩, rfl⟩⟩
  obtain ⟨size, get⟩ := found _ done
  exact ⟨_, done, size, (get _ _).mpr ⟨⟨_, List.mem_cons_self, spelled⟩, last⟩, again ▸ done⟩

end ComponentPack.Compiler.Compiled
