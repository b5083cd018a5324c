import LineLint.Proofs.Checking
import LineLint.Proofs.FileReport
import LineLint.Proofs.Schedule

/-! # Files that a disk gives

A run reports on the files that the disk gives and lists the other ones with the reason why it does
not give them. So it finds exactly what stands in the files that it gives, and all that it says comes
from these, whatever other files lie between them.
-/

namespace LineLint

open Discovery

def Reader.contents (read : Reader) (paths : List Path) : List (List UInt8) :=
  paths.filterMap fun path => (read path).toOption

section Run

variable {read : Reader} {analyzer : Analyzer} {root path : Path} {paths : List Path}

theorem toOption_read_eq_some_iff {octets : List UInt8} :
    (read path).toOption = some octets ↔ read path = .ok octets := by
  cases read path <;> simp [Except.toOption]

theorem Reader.mem_contents_iff {octets : List UInt8} :
    octets ∈ read.contents paths ↔ ∃ path ∈ paths, read path = .ok octets := by
  simp only [contents, List.mem_filterMap, toOption_read_eq_some_iff]

/-- A run reports on the files that can be read, each under its name below the root. -/
theorem reports_run (read : Reader) (analyzer : Analyzer) (root : Path) (paths : List Path) :
    (analyzer.run (paths.map (loadBy read root))).reports =
      paths.filterMap fun path => (read path).toOption.map fun octets =>
        analyzer.analyzeSource (path.idBelow root) (decode octets) := by
  rw [Analyzer.run_eq]
  change analyzer.reportsOf _ = _
  rw [Analyzer.reportsOf, List.filterMap_map, List.map_filterMap]
  congr 1
  funext path
  rw [Function.comp_apply, loadBy]
  cases read path <;> rfl

/-- A run lists the files that cannot be read with the reason, in the order of the paths. -/
theorem unreadable_run : (analyzer.run (paths.map (loadBy read root))).unreadable =
    paths.filterMap fun path =>
      match read path with
      | .ok _ => none
      | .error reason => some ⟨path.idBelow root, reason⟩ := by
  rw [Analyzer.run_eq]
  change List.filterMap _ _ = _
  rw [List.filterMap_map]
  congr 1
  funext path
  rw [Function.comp_apply, loadBy]
  cases read path <;> rfl

/-- Every file that can be read is reported on, with findings or without. -/
theorem reports_run_eq_nil_iff :
    (analyzer.run (paths.map (loadBy read root))).reports = [] ↔ read.contents paths = [] := by
  simp [reports_run, Reader.contents]

/-- What a run finds stands on the lines of files that can be read. -/
theorem mem_findings_run_iff {f : Finding} :
    f ∈ (analyzer.run (paths.map (loadBy read root))).findings ↔
      ∃ path ∈ paths, ∃ octets, read path = .ok octets ∧
        ∃ line ∈ SourceLine.ofContent (path.idBelow root) (decode octets),
          f ∈ analyzer.checkLine line := by
  have mem_analyzeSource_iff : ∀ {file content : String},
      f ∈ (analyzer.analyzeSource file content).findings ↔
        ∃ line ∈ SourceLine.ofContent file content, f ∈ analyzer.checkLine line :=
    List.mem_flatMap
  simp only [Summary.findings, reports_run, List.mem_flatMap, List.mem_filterMap,
    Option.map_eq_some_iff, toOption_read_eq_some_iff]
  constructor
  · rintro ⟨_, ⟨path, found, octets, read, rfl⟩, member⟩
    exact ⟨path, found, octets, read, mem_analyzeSource_iff.mp member⟩
  · rintro ⟨path, found, octets, read, member⟩
    exact ⟨_, ⟨path, found, octets, read, rfl⟩, mem_analyzeSource_iff.mpr member⟩

/-- Every file is reported on or listed as unreadable. -/
theorem length_reports_add_length_unreadable :
    (analyzer.run (paths.map (loadBy read root))).reports.length +
      (analyzer.run (paths.map (loadBy read root))).unreadable.length = paths.length := by
  rw [Analyzer.run_eq]
  change (Analyzer.reportsOf _ _).length + _ = _
  rw [Analyzer.reportsOf, List.length_map]
  exact (Source.length_text?_add_length_unreadable? _).trans (List.length_map _)

end Run

end LineLint
