/-! # Cutting lists at a separator

Cutting a list with `n` separators gives `n + 1` pieces, and joining the pieces gives the list
back.
-/

namespace LineLint.Text

variable {α : Type} [DecidableEq α]

/-- The pieces of a list between the occurrences of a separator. -/
def split (separator : α) : List α → List (List α)
  | [] => [[]]
  | x :: rest =>
    if x = separator then [] :: split separator rest
    else
      match split separator rest with
      | [] => [[x]]
      | piece :: pieces => (x :: piece) :: pieces

def join (separator : α) : List (List α) → List α
  | [] => []
  | [piece] => piece
  | piece :: pieces => piece ++ separator :: join separator pieces

theorem split_ne_nil (separator : α) (list : List α) : split separator list ≠ [] := by
  cases list with
  | nil => simp [split]
  | cons x rest =>
    simp only [split]
    split
    · simp
    · split <;> simp

theorem split_of_not_mem {separator : α} {list : List α} (absent : separator ∉ list) :
    split separator list = [list] := by
  induction list with
  | nil => rfl
  | cons x rest ih =>
    obtain ⟨different, absent⟩ := List.ne_and_not_mem_of_not_mem_cons absent
    rw [split, if_neg (Ne.symm different), ih absent]

theorem split_append_cons (separator : α) (front back : List α) :
    split separator (front ++ separator :: back) =
      split separator front ++ split separator back := by
  induction front with
  | nil => simp [split]
  | cons x front ih =>
    simp only [List.cons_append, split, ih]
    split
    · rfl
    · obtain ⟨piece, pieces, eq⟩ := List.exists_cons_of_ne_nil (split_ne_nil separator front)
      rw [eq]
      rfl

/-- Splitting loses nothing but the separators. -/
theorem join_split (separator : α) (list : List α) :
    join separator (split separator list) = list := by
  induction list with
  | nil => rfl
  | cons x rest ih =>
    simp only [split]
    split
    · rename_i same
      subst same
      obtain ⟨piece, pieces, eq⟩ := List.exists_cons_of_ne_nil (split_ne_nil x rest)
      rw [eq] at ih ⊢
      simp [join, ih]
    · obtain ⟨piece, pieces, eq⟩ := List.exists_cons_of_ne_nil (split_ne_nil separator rest)
      rw [eq] at ih ⊢
      cases pieces with
      | nil => simpa [join] using ih
      | cons next tail =>
        simp only [join] at ih ⊢
        rw [List.cons_append, ih]

omit [DecidableEq α] in
theorem join_append {separator : α} {front back : List (List α)} (nonempty : front ≠ [])
    (alsoNonempty : back ≠ []) :
    join separator (front ++ back) = join separator front ++ separator :: join separator back := by
  obtain ⟨next, more, rfl⟩ := List.exists_cons_of_ne_nil alsoNonempty
  induction front with
  | nil => exact absurd rfl nonempty
  | cons piece rest ih =>
    cases rest with
    | nil => rfl
    | cons other rest =>
      have further := ih (List.cons_ne_nil other rest)
      simp only [List.cons_append, join] at further ⊢
      rw [further, List.append_assoc]
      rfl

/-- What stands in front of a separator, at the beginning of a list or behind a separator, is a piece
of the list other than the last one. -/
theorem mem_dropLast_split_iff {separator : α} {piece list : List α} (absent : separator ∉ piece) :
    piece ∈ (split separator list).dropLast ↔
      piece ++ [separator] <+: list ∨
        ∃ front rest, list = front ++ separator :: rest ∧ piece ++ [separator] <+: rest := by
  have first (rest : List α) :
      piece ∈ (split separator ((piece ++ [separator]) ++ rest)).dropLast := by
    rw [List.append_assoc, List.singleton_append, split_append_cons, split_of_not_mem absent,
      List.dropLast_append_of_ne_nil (split_ne_nil separator rest)]
    exact List.mem_append_left _ (List.mem_singleton_self piece)
  constructor
  · intro member
    obtain ⟨before, after, cut⟩ := List.append_of_mem member
    obtain ⟨last, whole⟩ : ∃ last, split separator list =
        (split separator list).dropLast ++ [last] :=
      ⟨_, (List.dropLast_concat_getLast (split_ne_nil separator list)).symm⟩
    rw [cut, List.append_assoc, List.cons_append] at whole
    have behind : join separator (piece :: (after ++ [last])) =
        (piece ++ [separator]) ++ join separator (after ++ [last]) := by
      rw [List.append_assoc, List.singleton_append]
      exact join_append (List.cons_ne_nil piece []) (by simp)
    have text := join_split separator list
    rw [whole] at text
    by_cases start : before = []
    · rw [start, List.nil_append, behind] at text
      exact .inl ⟨_, text⟩
    · rw [join_append start (List.cons_ne_nil _ _), behind] at text
      exact .inr ⟨_, _, text.symm, _, rfl⟩
  · rintro (⟨rest, rfl⟩ | ⟨front, _, rfl, rest, rfl⟩)
    · exact first rest
    · rw [split_append_cons, List.dropLast_append_of_ne_nil (split_ne_nil separator _)]
      exact List.mem_append_right _ (first rest)

/-- A list is cut at its last separator in one way only. -/
theorem eq_of_append_cons_eq {separator : α} {front back other last : List α}
    (absent : separator ∉ back) (alsoAbsent : separator ∉ last)
    (same : front ++ separator :: back = other ++ separator :: last) :
    front = other ∧ back = last := by
  have pieces := congrArg (split separator) same
  rw [split_append_cons, split_append_cons, split_of_not_mem absent, split_of_not_mem alsoAbsent]
    at pieces
  obtain ⟨fronts, rfl⟩ := List.append_singleton_inj.mp pieces
  exact ⟨by rw [← join_split separator front, fronts, join_split], rfl⟩

section Intercalate

variable {separator : Char} {mark : String} {pieces others : List String}

/-- Texts without a separator are the pieces of the text that they make with a separator between
them. -/
theorem split_intercalate (isMark : mark.toList = [separator]) (nonempty : pieces ≠ [])
    (absent : ∀ piece ∈ pieces, separator ∉ piece.toList) :
    split separator (mark.intercalate pieces).toList = pieces.map String.toList := by
  induction pieces with
  | nil => exact absurd rfl nonempty
  | cons piece rest ih =>
    obtain ⟨first, absent⟩ := List.forall_mem_cons.mp absent
    have whole := split_of_not_mem first
    cases rest with
    | nil => simpa using whole
    | cons next rest =>
      have cut : (mark.intercalate (piece :: next :: rest)).toList =
          piece.toList ++ separator :: (mark.intercalate (next :: rest)).toList := by
        simp [String.intercalate_cons_cons, isMark]
      rw [cut, split_append_cons, whole, ih (List.cons_ne_nil next rest) absent]
      rfl

/-- The empty piece that no texts at all leave is not taken for a text. -/
theorem filter_split_intercalate (isMark : mark.toList = [separator])
    (solid : ∀ piece ∈ pieces, piece ≠ "" ∧ separator ∉ piece.toList) :
    (split separator (mark.intercalate pieces).toList).filter (fun piece => !piece.isEmpty) =
      pieces.map String.toList := by
  by_cases none : pieces = []
  · subst none
    rfl
  · rw [split_intercalate isMark none fun piece member => (solid piece member).2,
      List.filter_eq_self]
    intro chars member
    obtain ⟨piece, isPiece, rfl⟩ := List.mem_map.mp member
    simpa using (solid piece isPiece).1

/-- Texts without a separator, none of them empty, can be told from the text that they make with a
separator between them. -/
theorem intercalate_injective (isMark : mark.toList = [separator])
    (solid : ∀ piece ∈ pieces, piece ≠ "" ∧ separator ∉ piece.toList)
    (alsoSolid : ∀ piece ∈ others, piece ≠ "" ∧ separator ∉ piece.toList)
    (same : mark.intercalate pieces = mark.intercalate others) : pieces = others := by
  have cuts := filter_split_intercalate isMark solid
  rw [same, filter_split_intercalate isMark alsoSolid] at cuts
  exact ((List.map_inj_right fun _ _ => String.toList_inj.mp).mp cuts).symm

end Intercalate

omit [DecidableEq α] in
/-- A run at the front of a list that ends where it is followed by something else. -/
theorem takeWhile_append_stop {p : α → Bool} {run rest : List α}
    (all : ∀ x ∈ run, p x = true) (stop : ∀ x ∈ rest.head?, p x = false) :
    (run ++ rest).takeWhile p = run ∧ (run ++ rest).dropWhile p = rest := by
  rw [List.takeWhile_append_of_pos all, List.dropWhile_append_of_pos all]
  cases rest with
  | nil => simp
  | cons x rest =>
    have stop := stop x rfl
    simp [stop]

end LineLint.Text
