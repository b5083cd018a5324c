import LineLint.Text.Column
import LineLint.Text.Lines

/-! # Source lines

A rule is given one line at a time, with the file it is from and its number there.
-/

namespace LineLint

/-- A line of a file, without its terminator. -/
structure SourceLine where
  file : String
  /-- The number of the line in its file, counted from one. -/
  number : Nat
  text : String
deriving DecidableEq, Repr

namespace SourceLine

/-- Numbers the lines of a file from `number` on. -/
def numberFrom (file : String) (number : Nat) : List String → List SourceLine
  | [] => []
  | text :: rest => ⟨file, number, text⟩ :: numberFrom file (number + 1) rest

/-- The lines of a file that is already cut into lines. -/
def ofTexts (file : String) (texts : List String) : List SourceLine := numberFrom file 1 texts

def ofContent (file content : String) : List SourceLine :=
  ofTexts file ((Text.lines content.toList).map String.ofList)

def moveDown (count : Nat) (line : SourceLine) : SourceLine :=
  { line with number := line.number + count }

def columnAt (line : SourceLine) (offset : Nat) : Nat := Text.columnAt line.text.toList offset

theorem map_text_numberFrom (file : String) (number : Nat) (texts : List String) :
    (numberFrom file number texts).map text = texts := by
  induction texts generalizing number with
  | nil => rfl
  | cons head rest ih => simp [numberFrom, ih]

theorem numberFrom_eq_mapIdx (file : String) (number : Nat) (texts : List String) :
    numberFrom file number texts = texts.mapIdx fun i text => ⟨file, number + i, text⟩ := by
  induction texts generalizing number with
  | nil => rfl
  | cons text rest ih =>
    simp only [numberFrom, ih, List.mapIdx_cons, Nat.add_zero, Nat.add_assoc, Nat.add_comm 1]

/-- The lines numbered from a number on have that number and the ones behind it. -/
theorem number_of_mem_numberFrom {file : String} {number : Nat} {texts : List String}
    {line : SourceLine} (member : line ∈ numberFrom file number texts) :
    line.file = file ∧ number ≤ line.number ∧ line.number < number + texts.length := by
  induction texts generalizing number with
  | nil => simp [numberFrom] at member
  | cons text rest ih =>
    simp only [List.length_cons]
    rcases List.mem_cons.mp member with rfl | later
    · exact ⟨rfl, Nat.le_refl _, Nat.lt_add_of_pos_right (Nat.succ_pos _)⟩
    · obtain ⟨same, low, high⟩ := ih later
      exact ⟨same, by omega, by omega⟩

theorem pairwise_numberFrom (file : String) (number : Nat) (texts : List String) :
    (numberFrom file number texts).Pairwise fun a b => a.number < b.number := by
  induction texts generalizing number with
  | nil => exact .nil
  | cons text rest ih =>
    refine .cons ?_ (ih (number + 1))
    intro line later
    obtain ⟨_, low, _⟩ := number_of_mem_numberFrom later
    exact low

theorem numberFrom_append (file : String) (number : Nat) (front back : List String) :
    numberFrom file number (front ++ back) =
      numberFrom file number front ++ numberFrom file (number + front.length) back := by
  induction front generalizing number with
  | nil => rfl
  | cons text rest ih =>
    simp only [List.cons_append, numberFrom, ih, List.length_cons, Nat.add_assoc,
      Nat.add_comm 1]

theorem numberFrom_add (file : String) (number count : Nat) (texts : List String) :
    numberFrom file (number + count) texts =
      (numberFrom file number texts).map (moveDown count) := by
  induction texts generalizing number with
  | nil => rfl
  | cons text rest ih =>
    rw [numberFrom, numberFrom, List.map_cons, ← ih, Nat.add_right_comm]
    rfl

/-- The lines of a text behind terminated lines are its own lines, further down. -/
theorem ofContent_append (file : String) {front : String}
    (terminated : Text.IsTerminated front.toList) (back : String) :
    ofContent file (front ++ back) =
      ofContent file front ++
        (ofContent file back).map (moveDown (Text.lines front.toList).length) := by
  rw [ofContent, String.toList_append, Text.lines_append terminated, List.map_append, ofTexts,
    numberFrom_append, List.length_map, numberFrom_add]
  rfl

theorem map_text_ofTexts (file : String) (texts : List String) :
    (ofTexts file texts).map text = texts :=
  map_text_numberFrom file 1 texts

theorem map_toList_ofContent (file content : String) :
    (ofContent file content).map (fun line => line.text.toList) = Text.lines content.toList := by
  have texts := map_text_ofTexts file ((Text.lines content.toList).map String.ofList)
  have chars := congrArg (List.map String.toList) texts
  simpa [ofContent, Function.comp_def] using chars

theorem ofTexts_eq_mapIdx (file : String) (texts : List String) :
    ofTexts file texts = texts.mapIdx fun i text => ⟨file, i + 1, text⟩ := by
  rw [ofTexts, numberFrom_eq_mapIdx]
  simp only [Nat.add_comm 1]

end SourceLine

end LineLint
