import LineLint.Finding
import LineLint.SourceLine
import LineLint.Span

/-! # Rules

A rule looks at one line and says what it objects to. Nothing else is known of it but what it is
about, so the analyzer works for any rules, also for ones that are not built in.
-/

namespace LineLint

/-- A rule over single lines. -/
structure Rule where
  kind : RuleKind
  description : String
  /-- The severity that the rule gives to what it finds. -/
  severity : Severity
  /-- What the rule objects to on a line. -/
  check : SourceLine → List Finding

/-- A finding of a rule about a stretch of a line. -/
def SourceLine.findingAt (line : SourceLine) (kind : RuleKind) (severity : Severity) (span : Span)
    (message : String) : Finding :=
  ⟨kind, severity, ⟨line.file, line.number, line.columnAt span.start⟩, span.text, message⟩

end LineLint
