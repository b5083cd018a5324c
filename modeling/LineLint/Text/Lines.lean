/-! # Lines of a text

A line ends at a line feed, and a carriage return right before the line feed belongs to the
terminator. What follows the last line feed is a line of its own if it is not empty, and there a
carriage return is kept.
-/

namespace LineLint.Text

/-- A finished line, read back to front, without the carriage return of its terminator. -/
def closeLine : List Char → List Char
  | '\r' :: reversed => reversed.reverse
  | reversed => reversed.reverse

/-- Cuts a text into lines behind the lines `done` and the begun line `begun`, both of them held
back to front. -/
def linesFrom (done : List (List Char)) (begun : List Char) : List Char → List (List Char)
  | [] => (if begun.isEmpty then done else begun.reverse :: done).reverse
  | c :: rest =>
    if c = '\n' then linesFrom (closeLine begun :: done) [] rest
    else linesFrom done (c :: begun) rest

/-- The lines of a text, without their terminators. -/
def lines (text : List Char) : List (List Char) := linesFrom [] [] text

/-- The finished lines come in front of what is still to be cut. -/
theorem linesFrom_eq (done : List (List Char)) (begun text : List Char) :
    linesFrom done begun text = done.reverse ++ linesFrom [] begun text := by
  induction text generalizing done begun with
  | nil => cases begun <;> simp [linesFrom]
  | cons c rest ih =>
    simp only [linesFrom]
    split
    · rw [ih (closeLine begun :: done), ih [closeLine begun]]
      simp
    · exact ih done (c :: begun)

/-- Characters in front of a line feed belong to the begun line. -/
theorem linesFrom_append {front : List Char} (noFeed : '\n' ∉ front) (begun text : List Char) :
    linesFrom [] begun (front ++ text) = linesFrom [] (front.reverse ++ begun) text := by
  induction front generalizing begun with
  | nil => rfl
  | cons c front ih =>
    have other : c ≠ '\n' := fun same => noFeed (same ▸ List.mem_cons_self)
    have behind : '\n' ∉ front := fun member => noFeed (List.mem_cons_of_mem c member)
    rw [List.cons_append, linesFrom, if_neg other, ih behind, List.reverse_cons,
      List.append_assoc]
    rfl

theorem lines_nil : lines [] = [] := rfl

theorem lines_feed {front : List Char} (noFeed : '\n' ∉ front) (rest : List Char) :
    lines (front ++ '\n' :: rest) = closeLine front.reverse :: lines rest := by
  rw [lines, linesFrom_append noFeed, linesFrom, if_pos rfl, linesFrom_eq, List.append_nil]
  rfl

theorem lines_eq_singleton {text : List Char} (noFeed : '\n' ∉ text) (nonempty : text ≠ []) :
    lines text = [text] := by
  have cut := linesFrom_append noFeed [] []
  rw [List.append_nil, List.append_nil] at cut
  rw [lines, cut, linesFrom, if_neg (by simpa using nonempty), List.reverse_reverse]
  rfl

/-- Whether a text consists of lines that are all terminated. -/
def IsTerminated (text : List Char) : Prop := text = [] ∨ text.getLast? = some '\n'

instance (text : List Char) : Decidable (IsTerminated text) := inferInstanceAs (Decidable (_ ∨ _))

/-- A text is cut behind each of its line feeds as if another text began there. -/
theorem linesFrom_feed_append (begun front rest : List Char) :
    linesFrom [] begun (front ++ '\n' :: rest) =
      linesFrom [] begun (front ++ ['\n']) ++ lines rest := by
  induction front generalizing begun with
  | nil =>
    simp only [List.nil_append, linesFrom, if_true]
    rw [linesFrom_eq, lines]
    rfl
  | cons c front ih =>
    simp only [List.cons_append, linesFrom]
    split
    · rw [linesFrom_eq, linesFrom_eq [_] [] (front ++ ['\n']), ih [], List.append_assoc]
    · exact ih (c :: begun)

/-- The lines of a text behind terminated lines come behind those. -/
theorem lines_append {front : List Char} (terminated : IsTerminated front) (rest : List Char) :
    lines (front ++ rest) = lines front ++ lines rest := by
  rcases terminated with rfl | feed
  · rfl
  · obtain ⟨front, rfl⟩ := List.getLast?_eq_some_iff.mp feed
    rw [List.append_assoc]
    exact linesFrom_feed_append [] front rest

theorem closeLine_return (text : List Char) : closeLine (text ++ ['\r']).reverse = text := by
  simp [closeLine]

/-- A carriage return belongs to the line unless it stands right before the line feed. -/
theorem closeLine_of_no_return {text : List Char} (other : text.getLast? ≠ some '\r') :
    closeLine text.reverse = text := by
  rw [← List.head?_reverse] at other
  unfold closeLine
  split
  · rename_i reversed
    exact absurd (congrArg List.head? reversed) other
  · exact List.reverse_reverse text

end LineLint.Text
