import ComponentPack.Files.Write
import ComponentPack.Proofs.Text.Pieces
import Mathlib.Algebra.GroupWithZero.Nat

/-!
How paths are spelled. A name that is joined to a path adds one name and one part to it; the parent
of the result is the path again, up to slashes and `.` parts at its end, so that the temporary
sibling of an output is found where the output is.
-/

set_option autoImplicit false

namespace ComponentPack.Path

open Files List

variable {base : Path} {part : Part} {stop : Nat}

/-- A name that stands as a part of its own in a path. -/
structure IsName (name : Text) : Prop where
  nonempty : name ≠ []
  slash : '/' ∉ name
  here : name ≠ ['.']
  up : name ≠ ['.', '.']

namespace IsName

variable {name : Text}

theorem partOf_eq (h : IsName name) (position : Nat) : partOf position name = some (.name name) := by
  rw [partOf, if_neg (by simp [h.nonempty]), if_neg h.here, if_neg h.up]

theorem not_isAbsolute (h : IsName name) : isAbsolute ⟨name⟩ = false := by
  obtain ⟨c, rest, rfl⟩ := exists_cons_of_ne_nil h.nonempty
  have other : c ≠ '/' := fun same => h.slash (same ▸ mem_cons_self)
  simpa [isAbsolute] using other

end IsName

theorem join_of_nil (empty : base.text = []) (name : Text) : base.join ⟨name⟩ = ⟨name⟩ := by
  rw [join, if_pos (.inr (by rw [empty]; rfl))]

variable {name : Text}

theorem join_of_slash (h : IsName name) (last : base.text.getLast? = some '/') :
    base.join ⟨name⟩ = ⟨base.text ++ name⟩ := by
  have filled : base.text ≠ [] := fun empty => by simp [empty] at last
  rw [join, if_neg (by simp [h.not_isAbsolute, filled]), if_pos last]

theorem join_of_bare (h : IsName name) (filled : base.text ≠ [])
    (last : base.text.getLast? ≠ some '/') : base.join ⟨name⟩ = ⟨base.text ++ '/' :: name⟩ := by
  rw [join, if_neg (by simp [h.not_isAbsolute, filled]), if_neg last]

/-- The three ways in which a name is joined to a path. -/
theorem join_cases (base : Path) (h : IsName name) :
    (base.text = [] ∧ base.join ⟨name⟩ = ⟨name⟩) ∨
    (∃ front, base.text = front ++ ['/'] ∧ base.join ⟨name⟩ = ⟨front ++ '/' :: name⟩) ∨
    (base.text ≠ [] ∧ base.text.getLast? ≠ some '/' ∧
      base.join ⟨name⟩ = ⟨base.text ++ '/' :: name⟩) := by
  by_cases empty : base.text = []
  · exact .inl ⟨empty, join_of_nil empty name⟩
  · by_cases last : base.text.getLast? = some '/'
    · obtain ⟨front, split⟩ := List.getLast?_eq_some_iff.mp last
      refine .inr (.inl ⟨front, split, ?_⟩)
      rw [join_of_slash h last, split, append_assoc]
      rfl
    · exact .inr (.inr ⟨empty, last, join_of_bare h empty last⟩)

theorem isAbsolute_join (base : Path) (h : IsName name) :
    (base.join ⟨name⟩).isAbsolute = base.isAbsolute := by
  rcases join_cases base h with ⟨empty, equal⟩ | ⟨front, split, equal⟩ | ⟨filled, -, equal⟩
  · rw [equal, h.not_isAbsolute, isAbsolute, empty]
    rfl
  · rw [equal, isAbsolute, isAbsolute, split]
    cases front <;> rfl
  · obtain ⟨c, rest, split⟩ := exists_cons_of_ne_nil filled
    rw [equal, isAbsolute, isAbsolute, split]
    rfl

theorem endsInSlash_join (base : Path) (h : IsName name) :
    Disk.endsInSlash (base.join ⟨name⟩) = false := by
  obtain ⟨front, last, rfl⟩ : ∃ front last, name = front ++ [last] :=
    ⟨_, _, (dropLast_concat_getLast h.nonempty).symm⟩
  have other : last ≠ '/' := fun same => h.slash (by simp [same])
  have ends : ∀ text : Text, Disk.endsInSlash ⟨text ++ (front ++ [last])⟩ = false := by
    intro text
    rw [Disk.endsInSlash, ← append_assoc, List.getLast?_concat]
    simpa using other
  rcases join_cases base h with ⟨-, equal⟩ | ⟨text, -, equal⟩ | ⟨-, -, equal⟩
  · rw [equal]
    exact ends []
  · rw [equal, append_cons]
    exact ends _
  · rw [equal, append_cons]
    exact ends _

theorem prefix_join (base : Path) (h : IsName name) : base.text <+: (base.join ⟨name⟩).text := by
  rcases join_cases base h with ⟨empty, -⟩ | ⟨front, split, equal⟩ | ⟨-, -, equal⟩
  · rw [empty]
    exact List.nil_prefix
  · rw [equal, split]
    exact ⟨name, by simp⟩
  · rw [equal]
    exact prefix_append _ _

theorem join_text_ne_nil (base : Path) (h : IsName name) : (base.join ⟨name⟩).text ≠ [] := by
  rcases join_cases base h with ⟨-, equal⟩ | ⟨front, -, equal⟩ | ⟨-, -, equal⟩ <;>
    simp [equal, h.nonempty]

/-- The characters of a joined path are those of its parts, and a slash. -/
theorem mem_text_join (base : Path) (h : IsName name) {c : Char} (other : c ≠ '/') :
    c ∈ (base.join ⟨name⟩).text ↔ c ∈ base.text ∨ c ∈ name := by
  rcases join_cases base h with ⟨empty, equal⟩ | ⟨front, split, equal⟩ | ⟨-, -, equal⟩
  · simp [equal, empty]
  · simp [equal, split, other]
  · simp [equal, other]

/-- A name takes the place of the empty piece after a final slash, or comes after the pieces. -/
theorem pieces_join (base : Path) (h : IsName name) :
    ∃ front, Text.splitAll '/' (base.join ⟨name⟩).text = front ++ [name] ∧
      (Text.splitAll '/' base.text = front ∨ Text.splitAll '/' base.text = front ++ [[]]) := by
  have single := Text.splitAll_of_not_mem h.slash
  rcases join_cases base h with ⟨empty, equal⟩ | ⟨front, split, equal⟩ | ⟨-, -, equal⟩
  · exact ⟨[], by rw [equal, single]; rfl, .inr (by rw [empty]; rfl)⟩
  · refine ⟨Text.splitAll '/' front, by rw [equal, Text.splitAll_append, single], .inr ?_⟩
    rw [split, Text.splitAll_append]
    rfl
  · exact ⟨Text.splitAll '/' base.text, by rw [equal, Text.splitAll_append, single], .inl rfl⟩

theorem namesOf_join (base : Path) (h : IsName name) :
    Disk.namesOf (base.join ⟨name⟩) = Disk.namesOf base ++ [name] := by
  obtain ⟨front, joined, either⟩ := pieces_join base h
  have last : [name].filter (fun name => !name.isEmpty) = [name] := by simp [h.nonempty]
  rw [Disk.namesOf, Disk.namesOf, joined, filter_append, last]
  rcases either with same | same
  · rw [same]
  · rw [same, filter_append]
    simp

/-- The number of characters that pieces take, each with the slash after it. -/
def width (pieces : List Text) : Nat := (pieces.map fun piece => piece.length + 1).sum

theorem spansFrom_append (position : Nat) (a b : List Text) :
    spansFrom position (a ++ b) = spansFrom position a ++ spansFrom (position + width a) b := by
  induction a generalizing position with
  | nil => simp [spansFrom, width]
  | cons piece a ih =>
    have shift : position + piece.length + 1 + width a = position + width (piece :: a) := by
      simp only [width, map_cons, sum_cons]
      omega
    rw [cons_append, spansFrom, spansFrom, ih, shift]
    split <;> rfl

theorem spans_join (base : Path) (h : IsName name) :
    ∃ stop, (base.join ⟨name⟩).spans = base.spans ++ [(.name name, stop)] := by
  obtain ⟨front, joined, either⟩ := pieces_join base h
  have same : spansFrom 0 (Text.splitAll '/' base.text) = spansFrom 0 front := by
    rcases either with same | same
    · rw [same]
    · rw [same, spansFrom_append]
      simp [spansFrom, partOf]
  have last : spansFrom (0 + width front) [name] = [(.name name, 0 + width front + name.length)] := by
    simp only [spansFrom, h.partOf_eq]
  refine ⟨0 + width front + name.length, ?_⟩
  simp only [spans, isAbsolute_join base h, joined, spansFrom_append, last, same]
  split <;> rfl

theorem parts_join (base : Path) (h : IsName name) :
    (base.join ⟨name⟩).parts = base.parts ++ [.name name] := by
  obtain ⟨stop, joined⟩ := spans_join base h
  rw [parts, parts, joined, map_append]
  rfl

theorem fileName?_join (base : Path) (h : IsName name) :
    (base.join ⟨name⟩).fileName? = some name := by
  rw [fileName?, parts_join base h, List.getLast?_concat]

/-- An extension goes to the name at the end. -/
theorem addExtension_join (base : Path) (h : IsName name) (extension : Text) :
    (base.join ⟨name⟩).addExtension extension = base.join ⟨name ++ '.' :: extension⟩ := by
  have relative : isAbsolute ⟨name ++ '.' :: extension⟩ = isAbsolute ⟨name⟩ := by
    obtain ⟨c, rest, rfl⟩ := exists_cons_of_ne_nil h.nonempty
    rfl
  have absolute := h.not_isAbsolute
  simp only [addExtension, join, relative, absolute, Bool.false_eq_true, false_or]
  split
  · rfl
  · split <;> simp

/-- A path without the slashes and `.` parts after its last part. -/
def bare (path : Path) : Path :=
  match path.spans.getLast? with
  | none => ⟨[]⟩
  | some (_, stop) => ⟨path.text.take stop⟩

/-- Pieces that are no parts, wherever they stand. -/
def IsPadding (pieces : List Text) : Prop := ∀ piece ∈ pieces, piece = [] ∨ piece = ['.']

theorem padding_of_spansFrom_eq_nil {position : Nat} {pieces : List Text}
    (none : spansFrom position pieces = []) : IsPadding pieces := by
  induction pieces generalizing position with
  | nil => exact fun piece member => absurd member not_mem_nil
  | cons piece pieces ih =>
    rw [spansFrom] at none
    split at none
    · exact absurd none (by simp)
    · next part =>
      intro other member
      rcases mem_cons.mp member with rfl | member
      · rw [partOf] at part
        split_ifs at part with empty dot up
        · exact .inl (isEmpty_iff.mp empty)
        · exact .inr dot
      · exact ih none other member

theorem length_intercalate_cons (piece : Text) {others : List Text} (filled : others ≠ []) :
    (List.intercalate ['/'] (piece :: others)).length =
      piece.length + 1 + (List.intercalate ['/'] others).length := by
  obtain ⟨next, others, rfl⟩ := exists_cons_of_ne_nil filled
  rw [intercalate_cons_cons]
  simp only [length_append, length_singleton]

/-- The last part ends with the piece that it is, and only padding follows. -/
theorem getLast?_spansFrom {position : Nat} {pieces : List Text}
    (last : (spansFrom position pieces).getLast? = some (part, stop)) :
    ∃ front piece padding, pieces = front ++ piece :: padding ∧ piece ≠ [] ∧ IsPadding padding ∧
      stop = position + (List.intercalate ['/'] (front ++ [piece])).length := by
  induction pieces generalizing position with
  | nil => simp [spansFrom] at last
  | cons piece pieces ih =>
    -- Either a later piece is the last part, or this one is.
    by_cases later : spansFrom (position + piece.length + 1) pieces = []
    · rw [spansFrom, later] at last
      split at last
      · next found =>
        simp only [List.getLast?_singleton, Option.some.injEq, Prod.mk.injEq] at last
        refine ⟨[], piece, pieces, rfl, ?_, padding_of_spansFrom_eq_nil later, ?_⟩
        · rintro rfl
          simp [partOf] at found
        · rw [nil_append, intercalate_singleton]
          exact last.2.symm
      · simp at last
    · have inner : (spansFrom (position + piece.length + 1) pieces).getLast? = some (part, stop) := by
        rw [spansFrom] at last
        split at last
        · rwa [List.getLast?_cons_of_ne_nil later] at last
        · exact last
      obtain ⟨front, found, padding, split, filled, only, stops⟩ := ih inner
      refine ⟨piece :: front, found, padding, by rw [split]; rfl, filled, only, ?_⟩
      rw [cons_append, length_intercalate_cons piece (by simp), stops]
      omega

theorem intercalate_append_padding (front : List Text) (piece : Text) (padding : List Text) :
    List.intercalate ['/'] (front ++ [piece]) <+:
      List.intercalate ['/'] (front ++ piece :: padding) := by
  induction front with
  | nil =>
    cases padding with
    | nil => exact prefix_rfl
    | cons next padding =>
      rw [nil_append, nil_append, intercalate_singleton,
        intercalate_cons_cons, append_assoc]
      exact prefix_append _ _
  | cons first front ih =>
    obtain ⟨a, as, ha⟩ := exists_cons_of_ne_nil (show front ++ [piece] ≠ [] by simp)
    obtain ⟨b, bs, hb⟩ := exists_cons_of_ne_nil (show front ++ piece :: padding ≠ [] by simp)
    rw [cons_append, cons_append, ha, hb, intercalate_cons_cons,
      intercalate_cons_cons, ← ha, ← hb]
    exact (prefix_append_right_inj _).mpr ih

/-- The pieces of a path up to its last part, and what follows it. -/
theorem bare_of_getLast? {path : Path}
    (last : (spansFrom 0 (Text.splitAll '/' path.text)).getLast? = some (part, stop)) :
    ∃ front piece padding, Text.splitAll '/' path.text = front ++ piece :: padding ∧
      piece ≠ [] ∧ '/' ∉ piece ∧ IsPadding padding ∧
      path.bare = ⟨List.intercalate ['/'] (front ++ [piece])⟩ ∧
      Text.splitAll '/' path.bare.text = front ++ [piece] ∧ path.bare.text <+: path.text := by
  obtain ⟨front, piece, padding, split, filled, only, stops⟩ := getLast?_spansFrom last
  have slashless : ∀ p ∈ front ++ [piece], '/' ∉ p := by
    intro p member
    refine @Text.not_mem_of_mem_splitAll '/' path.text p ?_
    rw [split, append_cons]
    exact mem_append_left padding member
  have whole : path.text = List.intercalate ['/'] (front ++ piece :: padding) := by
    rw [← split, Text.intercalate_splitAll]
  have begins := intercalate_append_padding front piece padding
  rw [← whole] at begins
  have bared : path.bare = ⟨List.intercalate ['/'] (front ++ [piece])⟩ := by
    have spanned : path.spans.getLast? = some (part, stop) := by
      rw [spans]
      have filled : spansFrom 0 (Text.splitAll '/' path.text) ≠ [] := fun empty => by
        simp [empty] at last
      split
      · rw [List.getLast?_cons_of_ne_nil filled, last]
      · exact last
    rw [bare, spanned]
    simp only [stops, Nat.zero_add, mk.injEq]
    exact (prefix_iff_eq_take.mp begins).symm
  refine ⟨front, piece, padding, split, filled, slashless piece (by simp), only, bared, ?_, ?_⟩
  · rw [bared]
    exact Text.splitAll_intercalate (by simp) slashless
  · rw [bared]
    exact begins

theorem spansFrom_zero_ne_nil {text : Text} (filled : text ≠ [])
    (relative : isAbsolute ⟨text⟩ = false) : spansFrom 0 (Text.splitAll '/' text) ≠ [] := by
  obtain ⟨c, rest, rfl⟩ := exists_cons_of_ne_nil filled
  have other : c ≠ '/' := by simpa [isAbsolute] using relative
  obtain ⟨piece, others, split⟩ : ∃ piece others,
      Text.splitAll '/' (c :: rest) = (c :: piece) :: others := by
    rw [Text.splitAll, if_neg other]
    cases Text.splitAll '/' rest with
    | nil => exact ⟨[], [], rfl⟩
    | cons piece others => exact ⟨piece, others, rfl⟩
  have counts : ∃ part, partOf 0 (c :: piece) = some part := by
    rw [partOf, if_neg (by simp), if_pos rfl]
    split_ifs
    · exact ⟨_, rfl⟩
    · exact ⟨_, rfl⟩
    · exact ⟨_, rfl⟩
  obtain ⟨part, found⟩ := counts
  rw [split, spansFrom, found]
  simp

/-- A path is empty, or has a last piece that is a part, or is the root up to padding. -/
theorem bare_cases (path : Path) :
    (path.text = [] ∧ path.bare = ⟨[]⟩) ∨
    (path.isAbsolute = true ∧ path.bare = ⟨['/']⟩ ∧ IsPadding (Text.splitAll '/' path.text)) ∨
    ∃ front piece padding, Text.splitAll '/' path.text = front ++ piece :: padding ∧
      piece ≠ [] ∧ '/' ∉ piece ∧ IsPadding padding ∧
      path.bare = ⟨List.intercalate ['/'] (front ++ [piece])⟩ ∧
      Text.splitAll '/' path.bare.text = front ++ [piece] ∧ path.bare.text <+: path.text := by
  cases last : (spansFrom 0 (Text.splitAll '/' path.text)).getLast? with
  | some span => exact .inr (.inr (bare_of_getLast? last))
  | none =>
    have none : spansFrom 0 (Text.splitAll '/' path.text) = [] := List.getLast?_eq_none_iff.mp last
    by_cases absolute : path.isAbsolute = true
    · refine .inr (.inl ⟨absolute, ?_, padding_of_spansFrom_eq_nil none⟩)
      obtain ⟨rest, text⟩ := List.head?_eq_some_iff.mp (of_decide_eq_true absolute)
      rw [bare, spans, if_pos absolute, none]
      simp [text]
    · have relative : path.isAbsolute = false := by simpa using absolute
      have empty : path.text = [] := by
        by_contra filled
        exact spansFrom_zero_ne_nil filled relative none
      refine .inl ⟨empty, ?_⟩
      rw [bare, spans, if_neg absolute, none]
      rfl

theorem prefix_bare (path : Path) : path.bare.text <+: path.text := by
  rcases bare_cases path with ⟨-, equal⟩ | ⟨absolute, equal, -⟩ | ⟨_, _, _, -, -, -, -, -, -, begins⟩
  · rw [equal]
    exact List.nil_prefix
  · obtain ⟨rest, text⟩ := List.head?_eq_some_iff.mp (of_decide_eq_true absolute)
    rw [equal, text]
    exact ⟨rest, rfl⟩
  · exact begins

theorem bare_text_eq_nil_iff (path : Path) : path.bare.text = [] ↔ path.text = [] := by
  constructor
  · intro empty
    rcases bare_cases path with ⟨text, -⟩ | ⟨-, equal, -⟩ |
      ⟨front, piece, _, -, filled, -, -, -, split, -⟩
    · exact text
    · simp [equal] at empty
    · rw [empty] at split
      cases front with
      | nil => exact absurd (List.cons.inj split).1.symm filled
      | cons first front => simp [Text.splitAll] at split
  · intro empty
    have begins := prefix_bare path
    rwa [empty, prefix_nil] at begins

theorem isAbsolute_bare (path : Path) : path.bare.isAbsolute = path.isAbsolute := by
  obtain ⟨rest, text⟩ := prefix_bare path
  cases bared : path.bare.text with
  | nil =>
    have empty := (bare_text_eq_nil_iff path).mp bared
    rw [isAbsolute, isAbsolute, bared, empty]
  | cons c others => rw [isAbsolute, isAbsolute, ← text, bared]; rfl

/-- Only `.` parts are lost. -/
theorem namesOf_bare (path : Path) :
    ∃ dots, Disk.namesOf path = Disk.namesOf path.bare ++ dots ∧ ∀ name ∈ dots, name = ['.'] := by
  have dots {pieces : List Text} (padding : IsPadding pieces) :
      ∀ name ∈ pieces.filter (fun name => !name.isEmpty), name = ['.'] := by
    intro name member
    obtain ⟨among, filled⟩ := mem_filter.mp member
    rcases padding name among with rfl | dot
    · simp at filled
    · exact dot
  rcases bare_cases path with ⟨text, equal⟩ | ⟨-, equal, padding⟩ |
    ⟨front, piece, padding, split, -, -, only, -, bared, -⟩
  · exact ⟨[], by rw [equal, append_nil, Disk.namesOf, text]; rfl, by simp⟩
  · refine ⟨Disk.namesOf path, by rw [equal]; rfl, dots padding⟩
  · refine ⟨padding.filter fun name => !name.isEmpty, ?_, dots only⟩
    rw [Disk.namesOf, Disk.namesOf, bared, split, append_cons, filter_append]

theorem exists_intercalate_concat (front : List Text) (piece : Text) :
    ∃ text, List.intercalate ['/'] (front ++ [piece]) = text ++ piece := by
  induction front with
  | nil => exact ⟨[], by rw [nil_append, intercalate_singleton]; rfl⟩
  | cons first front ih =>
    obtain ⟨text, inner⟩ := ih
    obtain ⟨a, as, ha⟩ := exists_cons_of_ne_nil (show front ++ [piece] ≠ [] by simp)
    refine ⟨first ++ ['/'] ++ text, ?_⟩
    rw [cons_append, ha, intercalate_cons_cons, ← ha, inner, ← append_assoc]

theorem endsInSlash_bare (path : Path) :
    Disk.endsInSlash path.bare = false ∨ path.bare = ⟨['/']⟩ := by
  rcases bare_cases path with ⟨-, equal⟩ | ⟨-, equal, -⟩ |
    ⟨front, piece, _, -, filled, slash, -, equal, -, -⟩
  · exact .inl (by rw [equal]; rfl)
  · exact .inr equal
  · left
    obtain ⟨text, whole⟩ := exists_intercalate_concat front piece
    obtain ⟨others, last, rfl⟩ : ∃ others last, piece = others ++ [last] :=
      ⟨_, _, (dropLast_concat_getLast filled).symm⟩
    have other : last ≠ '/' := fun same => slash (by simp [same])
    rw [equal, Disk.endsInSlash, whole, ← append_assoc, List.getLast?_concat]
    simpa using other

theorem stop_le_of_getLast? {path : Path} (last : path.spans.getLast? = some (part, stop)) :
    stop ≤ path.text.length := by
  have inner (h : (spansFrom 0 (Text.splitAll '/' path.text)).getLast? = some (part, stop)) :
      stop ≤ path.text.length := by
    obtain ⟨front, piece, padding, split, -, -, stops⟩ := getLast?_spansFrom h
    have begins := intercalate_append_padding front piece padding
    rw [← split, Text.intercalate_splitAll] at begins
    rw [stops, Nat.zero_add]
    exact begins.length_le
  rw [spans] at last
  split at last
  · next absolute =>
    cases found : (spansFrom 0 (Text.splitAll '/' path.text)).getLast? with
    | none =>
      rw [List.getLast?_eq_none_iff.mp found] at last
      obtain ⟨rest, text⟩ := List.head?_eq_some_iff.mp (of_decide_eq_true absolute)
      have one : 1 = stop := congrArg Prod.snd (Option.some.inj last)
      rw [← one, text]
      simp
    | some span =>
      rw [List.getLast?_cons, found] at last
      exact inner (found.trans last)
  · exact inner last

theorem parent?_join (base : Path) (h : IsName name) :
    (base.join ⟨name⟩).parent? = some base.bare := by
  obtain ⟨stop, joined⟩ := spans_join base h
  rw [parent?, joined, reverse_append, bare]
  cases last : base.spans.getLast? with
  | none =>
    rw [List.getLast?_eq_none_iff.mp last]
    rfl
  | some span =>
    obtain ⟨part, stop⟩ := span
    obtain ⟨front, split⟩ := List.getLast?_eq_some_iff.mp last
    -- The last part of the path ends in it, so that a name after it does not matter.
    have within : base.text.take stop = (base.join ⟨name⟩).text.take stop := by
      obtain ⟨rest, whole⟩ := prefix_join base h
      rw [← whole, take_append_of_le_length (stop_le_of_getLast? last)]
    rw [split, reverse_append]
    simp [within]

theorem temporary_join (base : Path) (h : IsName name) :
    Disk.temporary (base.join ⟨name⟩) = base.bare.join ⟨'.' :: name ++ ".tmp"⟩ := by
  rw [Disk.temporary, withFileName, fileName?_join base h, parent?_join base h]
  rfl

end ComponentPack.Path
