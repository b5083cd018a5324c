import LineLint.Rule
import LineLint.Text.Blank
import LineLint.Text.Pattern

/-! # Method naming

Candidates are the identifiers between a blank and an opening parenthesis, as they stand where a
method is declared or called. Each of them should be in Pascal case.
-/

namespace LineLint.Rules

open Text

namespace MethodNaming

/-- Whether a character can begin an identifier: `[A-Za-z_]`. -/
def isInitial (c : Char) : Bool := c.isAlpha || c == '_'

/-- Whether a character can stand in an identifier: `[A-Za-z0-9_]`. -/
def isInner (c : Char) : Bool := c.isAlphanum || c == '_'

/-- An identifier between a blank and an opening parenthesis: `\s([A-Za-z_][A-Za-z0-9_]*)\(`. -/
def site : Pattern :=
  .seq (.one isBlank) (.seq (.group (.seq (.one isInitial) (.many isInner))) (.one (· == '(')))

/-- A name in Pascal case: `^[A-Z][a-zA-Z0-9]*$`. -/
def pascalCase : Pattern := .wholeName Char.isUpper Char.isAlphanum

def isPascalCase (name : List Char) : Bool := pascalCase.isMatch name

/-- The identifiers between a blank and an opening parenthesis, from left to right. -/
def candidates (text : List Char) : List Span :=
  (site.scan rfl (.start text)).filterMap Match.group

def message (name : String) : String := "method name \x60" ++ name ++ "\x60 is not PascalCase"

def check (severity : Severity) (line : SourceLine) : List Finding :=
  ((candidates line.text.toList).filter fun span => !isPascalCase span.chars).map fun span =>
    line.findingAt .methodNaming severity span (message span.text)

end MethodNaming

/-- The rule that the names of methods are in Pascal case. -/
def methodNaming (severity : Severity := .error) : Rule where
  kind := .methodNaming
  description := "Names at call and declaration sites must be PascalCase"
  severity := severity
  check := MethodNaming.check severity

end LineLint.Rules
