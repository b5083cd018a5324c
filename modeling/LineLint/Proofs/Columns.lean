import LineLint.Text.Column

/-! # Columns of places in a line

A byte offset between two characters has the column that follows the characters before it.
-/

namespace LineLint.Text

theorem charsBefore?_byteLength (front back : List Char) :
    charsBefore? (front ++ back) (byteLength front) = some front.length := by
  induction front with
  | nil => cases back <;> rfl
  | cons c front ih =>
    obtain ⟨size, width⟩ : ∃ size, c.utf8Size = size + 1 :=
      Nat.exists_eq_succ_of_ne_zero (Nat.ne_of_gt c.utf8Size_pos)
    have offset : byteLength (c :: front) = size + byteLength front + 1 := by
      rw [byteLength_cons]
      omega
    have fits : c.utf8Size ≤ size + byteLength front + 1 := by omega
    have behind : size + byteLength front + 1 - c.utf8Size = byteLength front := by omega
    rw [offset, List.cons_append, charsBefore?, if_pos fits, behind, ih]
    rfl

theorem columnAt_byteLength (front back : List Char) :
    columnAt (front ++ back) (byteLength front) = front.length + 1 := by
  rw [columnAt, charsBefore?_byteLength]
  rfl

/-- Of two beginnings of a text the one with fewer bytes is the shorter one. -/
theorem byteLength_lt_iff {text front other : List Char} (first : front <+: text)
    (second : other <+: text) : byteLength front < byteLength other ↔ front.length < other.length := by
  constructor
  · intro further
    refine Nat.lt_of_not_le fun short => ?_
    obtain ⟨between, rfl⟩ := List.prefix_of_prefix_length_le second first short
    rw [byteLength_append] at further
    omega
  · intro longer
    obtain ⟨between, rfl⟩ := List.prefix_of_prefix_length_le first second (Nat.le_of_lt longer)
    cases between with
    | nil => simp at longer
    | cons c rest =>
      have positive := c.utf8Size_pos
      rw [byteLength_append, byteLength_cons]
      omega

/-- A beginning of a text is known by the number of its bytes. -/
theorem eq_of_byteLength_eq {text front other : List Char} (first : front <+: text)
    (second : other <+: text) (same : byteLength front = byteLength other) : front = other := by
  have longer := byteLength_lt_iff first second
  have shorter := byteLength_lt_iff second first
  have length : front.length = other.length := by omega
  exact (List.prefix_of_prefix_length_le first second (Nat.le_of_eq length)).eq_of_length length

/-- Columns grow with the bytes before them. -/
theorem columnAt_lt_columnAt {text front other : List Char} (first : front <+: text)
    (second : other <+: text) (further : byteLength front < byteLength other) :
    columnAt text (byteLength front) < columnAt text (byteLength other) := by
  have longer := (byteLength_lt_iff first second).mp further
  obtain ⟨back, rfl⟩ := first
  obtain ⟨behind, same⟩ := second
  rw [columnAt_byteLength, ← same, columnAt_byteLength]
  omega

end LineLint.Text
