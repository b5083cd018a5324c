import LineLint.RuleKind
import LineLint.Severity

/-! # Findings

A finding says which rule objects to which text, where, how much it matters, and why.
-/

namespace LineLint

/-- A place in a file; lines and columns count from one. -/
structure Location where
  file : String
  line : Nat
  column : Nat
deriving DecidableEq, Repr

/-- One violation of a rule. -/
structure Finding where
  kind : RuleKind
  severity : Severity
  location : Location
  /-- The offending name, or the whole line where its indentation is at fault. -/
  text : String
  message : String
deriving DecidableEq, Repr

namespace Finding

/-- The description in a report: line, label and text. -/
def describe (f : Finding) : String :=
  "Line " ++ toString f.location.line ++ ": " ++ f.kind.label ++ " issue - " ++ f.text

/-- The one-line form: place, severity, code and message. -/
def display (f : Finding) : String :=
  f.location.file ++ ":" ++ toString f.location.line ++ ":" ++ toString f.location.column ++
    ": " ++ f.severity.name ++ " [" ++ f.kind.code ++ "] " ++ f.message

end Finding

end LineLint
