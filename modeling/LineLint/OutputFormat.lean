import LineLint.Json.Printer
import LineLint.Summary.Json

/-! # Output formats

A summary is printed for people, as JSON, or with one line for each finding. What is printed always
ends with a line feed.
-/

namespace LineLint

/-- How a summary is printed. -/
inductive OutputFormat where
  | text
  | json
  | compact
deriving DecidableEq, Repr

namespace OutputFormat

def all : List OutputFormat := [text, json, compact]

def name : OutputFormat → String
  | text => "text"
  | json => "json"
  | compact => "compact"

def ofName? (word : String) : Option OutputFormat := all.find? fun format => format.name == word

theorem ofName?_name (format : OutputFormat) : ofName? format.name = some format := by
  cases format <;> decide

end OutputFormat

/-- The lines about a report: a heading, its findings with numbers from one, and a blank line. -/
def Report.lines (report : Report) : List String :=
  ["Issues in file: " ++ report.file] ++
    (report.findings.zipIdx 1).map
      (fun (f, n) => "  Issue " ++ toString n ++ " - " ++ f.describe) ++
    [""]

def Unreadable.line (file : Unreadable) : String :=
  "Could not read file: " ++ file.file ++ " (" ++ file.reason ++ ")"

namespace Summary

/-- The lines about unreadable files, and a blank line if there are any. -/
def unreadableLines (s : Summary) : List String :=
  if s.unreadable.isEmpty then [] else s.unreadable.map Unreadable.line ++ [""]

/-- The last line, which says what the run came to. -/
def closingLine (s : Summary) : String :=
  match s.outcome with
  | .noFiles =>
    if s.unreadable.isEmpty then "No source files found." else "No readable source files found."
  | .clean => "No code quality issues found in any files."
  | .issuesFound =>
    let counts := s.severityCounts
    "Found " ++ toString counts.errors ++ " error(s), " ++ toString counts.warnings ++
      " warning(s), " ++ toString counts.infos ++ " info(s) in " ++ toString s.filesWithIssues ++
      " of " ++ toString s.filesScanned ++ " file(s)"

/-- The lines of a summary: the reports with findings, the unreadable files, and the last line. -/
def textLines (s : Summary) : List String :=
  (s.reports.filter Report.hasIssues).flatMap Report.lines ++ s.unreadableLines ++ [s.closingLine]

def render (s : Summary) : OutputFormat → String
  | .text => "\n".intercalate s.textLines ++ "\n"
  | .json => s.toJson.text ++ "\n"
  | .compact => "\n".intercalate (s.findings.map Finding.display) ++ "\n"

/-- Every layout prints something, the compact one an empty line where there is no finding. -/
theorem render_ne_empty (s : Summary) (format : OutputFormat) : s.render format ≠ "" := by
  cases format <;> simp [render]

end Summary

end LineLint
