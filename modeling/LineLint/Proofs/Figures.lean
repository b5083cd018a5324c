import LineLint.Summary
import Mathlib.Algebra.GroupWithZero.Nat
import Mathlib.Data.List.Perm.Basic

/-! # The figures of a summary

How many files there are and how many of them have findings, how many findings there are of each
severity, what a run came to, and which thresholds it reaches: each of these figures is computed
from the reports by a pass of its own. They agree with one another whatever was done to the summary,
and neither unreadable files nor the order of the reports has a part in them.
-/

namespace LineLint

variable {low high : Severity}

theorem Severity.reaches_of_le (ordered : low.rank ≤ high.rank) {s : Severity}
    (reached : s.reaches high = true) : s.reaches low = true := by
  simp only [reaches, decide_eq_true_eq] at *
  omega

namespace Summary

inductive Edit where
  | push (report : Report)
  | pushUnreadable (file reason : String)
  | addFindings (index : Nat) (findings : List Finding)
  | clearFindings (index : Nat)
  | removeReport (index : Nat)
deriving DecidableEq, Repr

def Edit.apply (s : Summary) : Edit → Summary
  | push report => s.push report
  | pushUnreadable file reason => s.pushUnreadable file reason
  | addFindings index findings => s.addFindings index findings
  | clearFindings index => s.clearFindings index
  | removeReport index => s.removeReport index

/-- What changes, one after the other, make of the summary of no files. -/
def ofEdits (edits : List Edit) : Summary := edits.foldl Edit.apply empty

theorem foldl_push (s : Summary) (reports : List Report) :
    (reports.map Edit.push).foldl Edit.apply s = { s with reports := s.reports ++ reports } := by
  induction reports generalizing s with
  | nil => simp
  | cons report rest ih =>
    rw [List.map_cons, List.foldl_cons, ih]
    simp [Edit.apply, Summary.push]

theorem foldl_pushUnreadable (s : Summary) (files : List Unreadable) :
    (files.map fun u => Edit.pushUnreadable u.file u.reason).foldl Edit.apply s =
      { s with unreadable := s.unreadable ++ files } := by
  induction files generalizing s with
  | nil => simp
  | cons file rest ih =>
    rw [List.map_cons, List.foldl_cons, ih]
    simp [Edit.apply, Summary.pushUnreadable]

/-- Every summary comes of changes. -/
theorem exists_edits (s : Summary) : ∃ edits, ofEdits edits = s := by
  refine ⟨s.reports.map Edit.push ++
    s.unreadable.map fun u => Edit.pushUnreadable u.file u.reason, ?_⟩
  rw [ofEdits, List.foldl_append, foldl_push, foldl_pushUnreadable]
  rfl

variable (s : Summary)

theorem filesWithIssues_le : s.filesWithIssues ≤ s.filesScanned := List.countP_le_length

theorem filesWithIssues_pos_iff : 0 < s.filesWithIssues ↔ s.findings ≠ [] := by
  simp [filesWithIssues, findings, List.countP_pos_iff, Report.hasIssues_iff]

theorem length_findings : s.findings.length = (s.reports.map Report.issueCount).sum :=
  List.length_flatMap

/-- A finding has one severity of the three. -/
theorem countAt_add : s.countAt .error + s.countAt .warning + s.countAt .info =
    s.findings.length := by
  simp only [countAt]
  induction s.findings with
  | nil => rfl
  | cons f rest ih =>
    simp only [List.countP_cons, List.length_cons, ← ih]
    cases f.severity <;> simp <;> omega

theorem outcome_eq_issuesFound_iff : s.outcome = .issuesFound ↔ 0 < s.filesWithIssues := by
  rw [outcome, filesWithIssues, List.countP_pos_iff, ← List.any_eq_true]
  by_cases empty : s.reports = []
  · simp [empty]
  · cases s.reports.any Report.hasIssues <;> simp [empty]

/-- A clean run has scanned something. -/
theorem outcome_eq_clean_iff :
    s.outcome = .clean ↔ s.filesScanned ≠ 0 ∧ s.filesWithIssues = 0 := by
  have neither : s.outcome = .clean ↔ s.outcome ≠ .noFiles ∧ s.outcome ≠ .issuesFound := by
    cases s.outcome <;> simp
  rw [neither, ne_eq, outcome_eq_noFiles_iff, ne_eq, outcome_eq_issuesFound_iff, filesScanned,
    ne_eq, List.length_eq_zero_iff, Nat.pos_iff_ne_zero, not_not]

theorem hasViolationsAt_iff {threshold : Severity} : s.hasViolationsAt threshold = true ↔
    ∃ f ∈ s.findings, f.severity.reaches threshold = true :=
  List.any_eq_true

theorem countAt_pos_iff {severity : Severity} : 0 < s.countAt severity ↔
    ∃ f ∈ s.findings, f.severity = severity := by
  simp [countAt, List.countP_pos_iff]

/-- A threshold is reached where one of the severities that reach it has been counted. -/
theorem hasViolationsAt_iff_countAt {threshold : Severity} : s.hasViolationsAt threshold = true ↔
    ∃ severity : Severity, severity.reaches threshold = true ∧ 0 < s.countAt severity := by
  simp only [hasViolationsAt_iff, countAt_pos_iff]
  constructor
  · rintro ⟨f, member, reached⟩
    exact ⟨f.severity, reached, f, member, rfl⟩
  · rintro ⟨_, reached, f, member, rfl⟩
    exact ⟨f, member, reached⟩

theorem hasViolationsAt_error_iff : s.hasViolationsAt .error = true ↔ 0 < s.countAt .error := by
  rw [hasViolationsAt_iff_countAt]
  constructor
  · rintro ⟨severity, reached, counted⟩
    cases severity with
    | error => exact counted
    | info | warning => cases reached
  · intro counted
    exact ⟨.error, rfl, counted⟩

theorem hasViolationsAt_warning_iff :
    s.hasViolationsAt .warning = true ↔ 0 < s.countAt .error + s.countAt .warning := by
  rw [hasViolationsAt_iff_countAt]
  constructor
  · rintro ⟨severity, reached, counted⟩
    cases severity with
    | error => omega
    | warning => omega
    | info => cases reached
  · intro counted
    rcases Nat.eq_zero_or_pos (s.countAt .error) with none | some
    · exact ⟨.warning, rfl, by omega⟩
    · exact ⟨.error, rfl, some⟩

/-- Everything reaches the lowest severity, so any finding is a violation there. -/
theorem hasViolationsAt_info_iff : s.hasViolationsAt .info = true ↔ 0 < s.filesWithIssues := by
  simp [hasViolationsAt_iff, filesWithIssues_pos_iff, Severity.reaches_info,
    List.eq_nil_iff_forall_not_mem]

theorem hasViolationsAt_of_le (ordered : low.rank ≤ high.rank)
    (violated : s.hasViolationsAt high = true) : s.hasViolationsAt low = true := by
  obtain ⟨f, member, reached⟩ := s.hasViolationsAt_iff.mp violated
  exact s.hasViolationsAt_iff.mpr ⟨f, member, Severity.reaches_of_le ordered reached⟩

/-- The figures of a summary agree with one another. -/
structure Consistent (s : Summary) : Prop where
  filesWithIssues_le : s.filesWithIssues ≤ s.filesScanned
  sum_counts : s.severityCounts.errors + s.severityCounts.warnings + s.severityCounts.infos =
    (s.reports.map Report.issueCount).sum
  sum_issueCounts : (s.reports.map Report.issueCount).sum = s.findings.length
  noFiles_iff : s.outcome = .noFiles ↔ s.filesScanned = 0
  issuesFound_iff : s.outcome = .issuesFound ↔ 0 < s.filesWithIssues
  clean_iff : s.outcome = .clean ↔ s.filesScanned ≠ 0 ∧ s.filesWithIssues = 0
  info_iff : s.hasViolationsAt .info = true ↔ 0 < s.filesWithIssues
  warning_iff : s.hasViolationsAt .warning = true ↔
    0 < s.severityCounts.errors + s.severityCounts.warnings
  error_iff : s.hasViolationsAt .error = true ↔ 0 < s.severityCounts.errors
  /-- A threshold that is raised is not reached where the lower one was not. -/
  raised : ∀ low high : Severity, low.rank ≤ high.rank →
    s.hasViolationsAt high = true → s.hasViolationsAt low = true

/-- The figures agree for every summary, not just for those a run makes. -/
theorem consistent : s.Consistent where
  filesWithIssues_le := s.filesWithIssues_le
  sum_counts := s.countAt_add.trans s.length_findings
  sum_issueCounts := s.length_findings.symm
  noFiles_iff := outcome_eq_noFiles_iff.trans List.length_eq_zero_iff.symm
  issuesFound_iff := s.outcome_eq_issuesFound_iff
  clean_iff := s.outcome_eq_clean_iff
  info_iff := s.hasViolationsAt_info_iff
  warning_iff := s.hasViolationsAt_warning_iff
  error_iff := s.hasViolationsAt_error_iff
  raised _ _ := s.hasViolationsAt_of_le

structure SameFigures (s t : Summary) : Prop where
  filesScanned : s.filesScanned = t.filesScanned
  filesWithIssues : s.filesWithIssues = t.filesWithIssues
  severityCounts : s.severityCounts = t.severityCounts
  issueCounts : (s.reports.map Report.issueCount).sum = (t.reports.map Report.issueCount).sum
  findings : s.findings.length = t.findings.length
  outcome : s.outcome = t.outcome
  hasViolationsAt : ∀ threshold, s.hasViolationsAt threshold = t.hasViolationsAt threshold

/-- Neither the order of the reports nor the unreadable files have a part in the figures. -/
theorem sameFigures_of_perm {s t : Summary} (permuted : s.reports.Perm t.reports) :
    s.SameFigures t := by
  have findings : s.findings.Perm t.findings := permuted.flatMap_right _
  have counts : ∀ severity, s.countAt severity = t.countAt severity := by
    intro severity
    exact findings.countP_eq _
  refine ⟨permuted.length_eq, permuted.countP_eq _, ?_, ?_, findings.length_eq, ?_, ?_⟩
  · simp only [severityCounts, counts]
  · rw [← length_findings, ← length_findings, findings.length_eq]
  · rw [outcome, outcome, permuted.isEmpty_eq, permuted.any_eq]
  · intro threshold
    exact findings.any_eq

end Summary

/-- However a summary comes about from that of no files, its figures agree with one another, and
they stay as they are when an unreadable file is added or the reports change places. There is no
summary that does not come about in this way. -/
theorem figures_agree_after_edits :
    (∀ edits : List Summary.Edit,
      let s := Summary.ofEdits edits
      s.Consistent ∧ (∀ file reason, s.SameFigures (s.pushUnreadable file reason)) ∧
        ∀ t : Summary, s.reports.Perm t.reports → s.SameFigures t) ∧
      ∀ s : Summary, ∃ edits, Summary.ofEdits edits = s := by
  refine ⟨?_, Summary.exists_edits⟩
  intro edits s
  refine ⟨s.consistent, ?_, ?_⟩
  · intro file reason
    exact Summary.sameFigures_of_perm (.refl _)
  · intro t permuted
    exact Summary.sameFigures_of_perm permuted

/-- One report gets its findings late, one loses them, and one goes. -/
theorem figures_agree_after_late_findings :
    let found (severity : Severity) : Finding :=
      ⟨.methodNaming, severity, ⟨"a", 1, 2⟩, "f", "found"⟩
    let edits : List Summary.Edit :=
      [.push ⟨"a", []⟩, .pushUnreadable "b" "denied", .push ⟨"c", [found .info]⟩,
        .push ⟨"d", [found .error]⟩, .addFindings 0 [found .warning, found .info],
        .clearFindings 1, .removeReport 2]
    let s := Summary.ofEdits edits
    let t : Summary := ⟨[⟨"c", []⟩, ⟨"a", [found .warning, found .info]⟩], []⟩
    s.reports.Perm t.reports ∧ s.Consistent ∧ s.SameFigures t ∧ s.outcome = .issuesFound ∧
      s.severityCounts = ⟨0, 1, 1⟩ ∧ s.hasViolationsAt .error = false := by
  intro found edits s t
  have permuted : s.reports.Perm t.reports := .swap _ _ []
  obtain ⟨consistent, _, same⟩ := figures_agree_after_edits.1 edits
  exact ⟨permuted, consistent, same t permuted, by decide, by decide, by decide⟩

end LineLint
