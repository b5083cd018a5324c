import LineLint.Finding.Json
import LineLint.Summary

/-! # Summaries as JSON

The reports and the unreadable files are written in order, together with what is computed from
them.
-/

namespace LineLint

open Json (Value)

def Report.toJson (report : Report) : Value :=
  .ofMembers
    [("file", .ofString report.file), ("has_issues", .boolean report.hasIssues),
      ("findings", .array (report.findings.map Finding.toJson))]

def Unreadable.toJson (file : Unreadable) : Value :=
  .ofMembers [("file", .ofString file.file), ("reason", .ofString file.reason)]

def Summary.toJson (s : Summary) : Value :=
  .ofMembers
    [("outcome", .ofString s.outcome.name), ("files_scanned", .ofNat s.filesScanned),
      ("files_with_issues", .ofNat s.filesWithIssues),
      ("reports", .array (s.reports.map Report.toJson)),
      ("unreadable", .array (s.unreadable.map Unreadable.toJson))]

end LineLint
