import LineLint.Report

/-! # Summaries

A summary holds the reports of the analyzed files and the files that could not be read, each in
the order in which they came. Everything else that is said about a run is computed from these
two lists.
-/

namespace LineLint

/-- A file that could not be read, and why. -/
structure Unreadable where
  file : String
  reason : String
deriving DecidableEq, Repr

/-- What a run came to. -/
inductive Outcome where
  /-- No file was analyzed. -/
  | noFiles
  /-- Files were analyzed and none has a finding. -/
  | clean
  /-- Some file has a finding. -/
  | issuesFound
deriving DecidableEq, Repr

def Outcome.name : Outcome → String
  | noFiles => "no_files"
  | clean => "clean"
  | issuesFound => "issues_found"

/-- How many findings have each severity. -/
structure SeverityCounts where
  errors : Nat
  warnings : Nat
  infos : Nat
deriving DecidableEq, Repr

/-- The result of a run over files. -/
structure Summary where
  reports : List Report
  unreadable : List Unreadable
deriving DecidableEq, Repr

namespace Summary

def empty : Summary := ⟨[], []⟩

def push (s : Summary) (report : Report) : Summary :=
  { s with reports := s.reports ++ [report] }

/-- Adds the next file that could not be read. -/
def pushUnreadable (s : Summary) (file reason : String) : Summary :=
  { s with unreadable := s.unreadable ++ [⟨file, reason⟩] }

/-- Adds findings to the report at an index, if there is one. -/
def addFindings (s : Summary) (index : Nat) (findings : List Finding) : Summary :=
  { s with
    reports := s.reports.modify index fun r => { r with findings := r.findings ++ findings } }

/-- Drops the findings of the report at an index, if there is one. -/
def clearFindings (s : Summary) (index : Nat) : Summary :=
  { s with reports := s.reports.modify index fun r => { r with findings := [] } }

def removeReport (s : Summary) (index : Nat) : Summary :=
  { s with reports := s.reports.eraseIdx index }

def filesScanned (s : Summary) : Nat := s.reports.length

def filesWithIssues (s : Summary) : Nat := s.reports.countP Report.hasIssues

/-- All findings, report by report. -/
def findings (s : Summary) : List Finding := s.reports.flatMap Report.findings

def outcome (s : Summary) : Outcome :=
  if s.reports.isEmpty then .noFiles
  else if s.reports.any Report.hasIssues then .issuesFound
  else .clean

def countAt (s : Summary) (severity : Severity) : Nat :=
  s.findings.countP fun f => f.severity = severity

def severityCounts (s : Summary) : SeverityCounts :=
  ⟨s.countAt .error, s.countAt .warning, s.countAt .info⟩

def hasViolationsAt (s : Summary) (threshold : Severity) : Bool :=
  s.findings.any fun f => f.severity.reaches threshold

theorem outcome_eq_noFiles_iff {s : Summary} : s.outcome = .noFiles ↔ s.reports = [] := by
  unfold outcome
  split <;> rename_i h
  · simpa using h
  · split <;> simp_all

end Summary

end LineLint
