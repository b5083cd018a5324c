import LineLint.Finding

/-! # Reports

A report holds the findings of one file, in the order in which they were met.
-/

namespace LineLint

structure Report where
  file : String
  findings : List Finding
deriving DecidableEq, Repr

namespace Report

def hasIssues (report : Report) : Bool := !report.findings.isEmpty

def issueCount (report : Report) : Nat := report.findings.length

theorem hasIssues_iff {report : Report} : report.hasIssues = true ↔ report.findings ≠ [] := by
  simp [hasIssues]

end Report

end LineLint
