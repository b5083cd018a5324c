/-! # Comparing text without regard to ASCII case -/

namespace LineLint.Text

/-- Whether two texts are equal once the letters A to Z are read as a to z. -/
def equalUpToCase (a b : List Char) : Bool := a.map Char.toLower == b.map Char.toLower

theorem equalUpToCase_iff {a b : List Char} :
    equalUpToCase a b = true ↔ a.map Char.toLower = b.map Char.toLower := by
  simp [equalUpToCase]

end LineLint.Text
