import LineLint.Rule
import LineLint.Text.Pattern

/-! # Variable naming

Candidates are the words of a line that consist of ASCII letters and digits and begin with a
small letter. Each of them should be in camel case, which is to say that it should consist of
ASCII letters and digits and begin with a small letter.
-/

namespace LineLint.Rules

open Text

namespace VariableNaming

/-- A word of ASCII letters and digits that begins with a small letter: `\b[a-z][a-zA-Z0-9]*\b`. -/
def word : Pattern :=
  .seq .wordEdge (.seq (.one Char.isLower) (.seq (.many Char.isAlphanum) .wordEdge))

/-- A name in camel case: `^[a-z][a-zA-Z0-9]*$`. -/
def camelCase : Pattern := .wholeName Char.isLower Char.isAlphanum

def isCamelCase (name : List Char) : Bool := camelCase.isMatch name

/-- The words that could be the name of a variable, from left to right. -/
def candidates (text : List Char) : List Span := (word.scan rfl (.start text)).map Match.whole

def message (name : String) : String := "variable name \x60" ++ name ++ "\x60 is not camelCase"

def check (severity : Severity) (line : SourceLine) : List Finding :=
  ((candidates line.text.toList).filter fun span => !isCamelCase span.chars).map fun span =>
    line.findingAt .variableNaming severity span (message span.text)

end VariableNaming

/-- The rule that the names of variables are in camel case. -/
def variableNaming (severity : Severity := .error) : Rule where
  kind := .variableNaming
  description := "Lowercase-initial tokens must be camelCase"
  severity := severity
  check := VariableNaming.check severity

end LineLint.Rules
