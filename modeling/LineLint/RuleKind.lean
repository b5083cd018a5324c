import LineLint.Text.AsciiCase
import LineLint.Text.Blank

/-! # Kinds of rules

There are three kinds of rules. Their order is the order in which they run on a line, and so the
order of the findings of a line.
-/

namespace LineLint

/-- What a rule is about. -/
inductive RuleKind where
  | indentation
  | variableNaming
  | methodNaming
deriving DecidableEq, Repr

namespace RuleKind

/-- Every kind, in the order in which rules run. -/
def all : List RuleKind := [indentation, variableNaming, methodNaming]

def name : RuleKind → String
  | indentation => "indentation"
  | variableNaming => "variable-naming"
  | methodNaming => "method-naming"

def code : RuleKind → String
  | indentation => "SL001"
  | variableNaming => "SL002"
  | methodNaming => "SL003"

/-- The words for a kind in a report. -/
def label : RuleKind → String
  | indentation => "Indentation"
  | variableNaming => "Variable naming"
  | methodNaming => "Method naming"

/-- The place of a kind in the order in which rules run. -/
def rank : RuleKind → Nat
  | indentation => 0
  | variableNaming => 1
  | methodNaming => 2

def ofName? (word : String) : Option RuleKind := all.find? fun kind => kind.name == word

/-- Whether a text, trimmed of blanks, is the name or the code of a kind up to ASCII case. -/
def isNamedBy (kind : RuleKind) (text : List Char) : Bool :=
  Text.equalUpToCase kind.name.toList (Text.trim text) ||
    Text.equalUpToCase kind.code.toList (Text.trim text)

/-- The kind that a text names, by its name or its code. -/
def lookup? (text : List Char) : Option RuleKind := all.find? (isNamedBy · text)

theorem mem_all (kind : RuleKind) : kind ∈ all := by cases kind <;> decide

theorem pairwise_rank_all : all.Pairwise fun a b => a.rank < b.rank := by decide

theorem ofName?_name (kind : RuleKind) : ofName? kind.name = some kind := by
  cases kind <;> decide

/-- Names are read exactly, case included: this is how findings are read back. -/
theorem ofName?_eq_some_iff {word : String} {kind : RuleKind} :
    ofName? word = some kind ↔ word = kind.name := by
  constructor
  · intro found
    have matched := List.find?_some found
    simpa using (beq_iff_eq.mp matched).symm
  · rintro rfl
    exact ofName?_name kind

theorem lookup?_name (kind : RuleKind) : lookup? kind.name.toList = some kind := by
  cases kind <;> decide

theorem lookup?_code (kind : RuleKind) : lookup? kind.code.toList = some kind := by
  cases kind <;> decide

end RuleKind

end LineLint
