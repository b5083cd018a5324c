/-! # Severities

A severity ranks a finding. The threshold of a run is a severity too: a run fails when a finding
reaches it.
-/

namespace LineLint

/-- How much a finding matters. -/
inductive Severity where
  | info
  | warning
  | error
deriving DecidableEq, Repr

namespace Severity

/-- Every severity, from the lowest to the highest. -/
def all : List Severity := [info, warning, error]

def name : Severity → String
  | info => "info"
  | warning => "warning"
  | error => "error"

def rank : Severity → Nat
  | info => 0
  | warning => 1
  | error => 2

def reaches (s threshold : Severity) : Bool := threshold.rank ≤ s.rank

def ofName? (word : String) : Option Severity := all.find? fun s => s.name == word

theorem mem_all (s : Severity) : s ∈ all := by cases s <;> decide

theorem ofName?_name (s : Severity) : ofName? s.name = some s := by cases s <;> decide

theorem ofName?_eq_some_iff {word : String} {s : Severity} :
    ofName? word = some s ↔ word = s.name := by
  constructor
  · intro found
    have matched := List.find?_some found
    simpa using (beq_iff_eq.mp matched).symm
  · rintro rfl
    exact ofName?_name s

theorem reaches_info (s : Severity) : s.reaches info = true := by cases s <;> rfl

end Severity

end LineLint
