import LineLint.Rule
import LineLint.Text.Blank
import LineLint.Text.Pattern

/-! # Indentation

The blanks in front of a line are counted, tabs and spaces alike, and their number must be a
multiple of the indent unit. A line of nothing but blanks counts as well.
-/

namespace LineLint.Rules

open Text

/-- The number of characters that one level of indentation takes. -/
structure IndentUnit where
  size : Nat
  size_pos : 0 < size := by decide
deriving DecidableEq, Repr

namespace IndentUnit

/-- The unit of a given size, if that is positive. -/
def ofNat? (size : Nat) : Option IndentUnit :=
  if positive : 0 < size then some ⟨size, positive⟩ else none

/-- The unit where none is asked for. -/
def default : IndentUnit := ⟨4, by decide⟩

theorem ofNat?_eq_none_iff {size : Nat} : ofNat? size = none ↔ size = 0 := by
  unfold ofNat?
  split <;> simp <;> omega

theorem ofNat?_size (unit : IndentUnit) : ofNat? unit.size = some unit := by
  simp [ofNat?, unit.size_pos]

theorem size_of_ofNat? {size : Nat} {unit : IndentUnit} (sized : ofNat? size = some unit) :
    unit.size = size := by
  unfold ofNat? at sized
  split at sized
  · cases sized
    rfl
  · cases sized

end IndentUnit

namespace Indentation

/-- The blanks in front of a text: `^\s*`. -/
def leading : Pattern := .seq .textStart (.many isBlank)

def width (text : List Char) : Nat :=
  match leading.search? (.start text) with
  | some found => found.whole.chars.length
  | none => 0

/-- Whether the indentation of a text is not a multiple of the unit. -/
def isViolation (unit : IndentUnit) (text : List Char) : Bool := width text % unit.size != 0

def message (width : Nat) (unit : IndentUnit) : String :=
  "indentation of " ++ toString width ++ " character(s) is not a multiple of " ++
    toString unit.size

def check (unit : IndentUnit) (severity : Severity) (line : SourceLine) : List Finding :=
  let width := width line.text.toList
  if width % unit.size = 0 then []
  else
    [⟨.indentation, severity, ⟨line.file, line.number, 1⟩, line.text, message width unit⟩]

/-- A line without indentation never violates, as zero is a multiple of every unit. -/
theorem isViolation_iff {unit : IndentUnit} {text : List Char} :
    isViolation unit text = true ↔ ¬ unit.size ∣ width text := by
  simp [isViolation, Nat.dvd_iff_mod_eq_zero]

end Indentation

/-- The rule that indentation comes in whole units. -/
def indentation (unit : IndentUnit) (severity : Severity := .error) : Rule where
  kind := .indentation
  description := "Leading whitespace must be a multiple of the indent unit"
  severity := severity
  check := Indentation.check unit severity

end LineLint.Rules
