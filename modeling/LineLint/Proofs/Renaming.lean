import LineLint.Proofs.ReportOrder
import LineLint.Proofs.Schedule

/-! # Reports under another name

No built-in rule asks for the name of the file that it looks at. So a file under another name has the
same report, but for the name.
-/

namespace LineLint

def Finding.inFile (file : String) (f : Finding) : Finding :=
  { f with location := { f.location with file := file } }

def SourceLine.inFile (file : String) (line : SourceLine) : SourceLine := { line with file := file }

/-- The same report about a file of another name. -/
def Report.inFile (file : String) (report : Report) : Report :=
  ⟨file, report.findings.map (Finding.inFile file)⟩

def Unreadable.inFile (file : String) (entry : Unreadable) : Unreadable := { entry with file := file }

def Source.inFile (file : String) (source : Source) : Source := { source with id := file }

namespace Summary

/-- What a summary says about files of one name. -/
def about (s : Summary) (file : String) : Summary :=
  ⟨s.reports.filter (·.file == file), s.unreadable.filter (·.file == file)⟩

/-- The same summary about files of another name. -/
def inFile (file : String) (s : Summary) : Summary :=
  ⟨s.reports.map (Report.inFile file), s.unreadable.map (Unreadable.inFile file)⟩

end Summary

theorem SourceLine.numberFrom_inFile (file other : String) (number : Nat) (texts : List String) :
    numberFrom file number texts = (numberFrom other number texts).map (inFile file) := by
  induction texts generalizing number with
  | nil => rfl
  | cons text rest ih => simp [numberFrom, ih, inFile]

theorem SourceLine.ofContent_inFile (file other content : String) :
    ofContent file content = (ofContent other content).map (inFile file) :=
  numberFrom_inFile file other 1 _

/-- A rule finds the same on a line whatever the name of its file is. -/
def Rule.IgnoresNames (rule : Rule) : Prop :=
  ∀ file line, rule.check (line.inFile file) = (rule.check line).map (Finding.inFile file)

/-- No built-in rule reads the name of the file. -/
theorem Rule.BuiltIn.ignoresNames {rule : Rule} (builtIn : rule.BuiltIn) : rule.IgnoresNames := by
  intro file line
  cases builtIn with
  | indentation unit severity =>
    change Rules.Indentation.check unit severity (line.inFile file) =
      (Rules.Indentation.check unit severity line).map (Finding.inFile file)
    rw [Rules.Indentation.check, Rules.Indentation.check, apply_ite (List.map _)]
    rfl
  | variableNaming severity =>
    change Rules.VariableNaming.check severity (line.inFile file) =
      (Rules.VariableNaming.check severity line).map (Finding.inFile file)
    rw [Rules.VariableNaming.check, Rules.VariableNaming.check, List.map_map]
    rfl
  | methodNaming severity =>
    change Rules.MethodNaming.check severity (line.inFile file) =
      (Rules.MethodNaming.check severity line).map (Finding.inFile file)
    rw [Rules.MethodNaming.check, Rules.MethodNaming.check, List.map_map]
    rfl

theorem ActiveRule.check_inFile {active : ActiveRule} (ignores : active.rule.IgnoresNames)
    (file : String) (line : SourceLine) :
    active.check (line.inFile file) = (active.check line).map (Finding.inFile file) := by
  rw [check_eq, check_eq, ignores, List.map_map, List.map_map]
  rfl

namespace Analyzer

/-- What a run says about the files of one name is the run over these files. -/
theorem about_summaryOf (analyzer : Analyzer) (sources : List Source) (file : String) :
    (analyzer.summaryOf sources).about file =
      analyzer.summaryOf (sources.filter (·.id == file)) := by
  have reports : (analyzer.reportsOf sources).filter (·.file == file) =
      analyzer.reportsOf (sources.filter (·.id == file)) := by
    simp only [reportsOf, List.map_filterMap, List.filter_filterMap, List.filterMap_filter]
    apply List.filterMap_congr
    rintro ⟨id, text | reason⟩ _
    · by_cases same : id = file <;> simp [Source.text?, analyzeSource, same]
    · simp [Source.text?]
  have unreadable : (sources.filterMap Source.unreadable?).filter (·.file == file) =
      (sources.filter (·.id == file)).filterMap Source.unreadable? := by
    rw [List.filter_filterMap, List.filterMap_filter]
    apply List.filterMap_congr
    rintro ⟨id, text | reason⟩ _
    · simp [Source.unreadable?]
    · by_cases same : id = file <;> simp [Source.unreadable?, same]
  exact (Summary.mk.injEq ..).mpr ⟨reports, unreadable⟩

variable {analyzer : Analyzer}
  (ignores : ∀ active ∈ analyzer.active, active.rule.IgnoresNames)
include ignores

/-- Renaming a file renames it in each finding and changes nothing else. -/
theorem checkLine_inFile (file : String) (line : SourceLine) :
    analyzer.checkLine (line.inFile file) = (analyzer.checkLine line).map (Finding.inFile file) := by
  rw [checkLine, checkLine, List.map_flatMap]
  apply List.flatMap_congr
  intro active member
  exact ActiveRule.check_inFile (ignores active member) file line

/-- The report on a file is the report on the same text under another name, but for the name. -/
theorem analyzeSource_inFile (file other content : String) :
    analyzer.analyzeSource file content = (analyzer.analyzeSource other content).inFile file := by
  rw [analyzeSource, analyzeSource, SourceLine.ofContent_inFile file other, List.flatMap_map]
  simp only [checkLine_inFile ignores]
  rw [Report.inFile, List.map_flatMap]

/-- The run over files that are all given one name is the run over the files, but for the names. -/
theorem summaryOf_inFile (file : String) (sources : List Source) :
    analyzer.summaryOf (sources.map (Source.inFile file)) =
      (analyzer.summaryOf sources).inFile file := by
  have reports : analyzer.reportsOf (sources.map (Source.inFile file)) =
      (analyzer.reportsOf sources).map (Report.inFile file) := by
    rw [reportsOf, reportsOf, List.filterMap_map, List.map_map, List.map_filterMap,
      List.map_filterMap]
    apply List.filterMap_congr
    rintro ⟨id, text | reason⟩ _
    · exact congrArg some (analyzeSource_inFile ignores file id text)
    · rfl
  have unreadable : (sources.map (Source.inFile file)).filterMap Source.unreadable? =
      (sources.filterMap Source.unreadable?).map (Unreadable.inFile file) := by
    rw [List.filterMap_map, List.map_filterMap]
    apply List.filterMap_congr
    rintro ⟨id, text | reason⟩ _ <;> rfl
  rw [summaryOf, reports, unreadable]
  rfl

end Analyzer

end LineLint
