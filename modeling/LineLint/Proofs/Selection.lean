import LineLint.Proofs.BuiltIn
import LineLint.Proofs.Schedule

/-! # Selecting rules

Rules do not influence one another. To leave out rules, by selection or by settings, is to leave out
what they find from a run of all of them.
-/

namespace LineLint

namespace Settings

variable (settings : Settings)

/-- The settings with every rule enabled and all else as it is. -/
def enableAll : Settings :=
  { settings with
    rules := settings.rules.map fun entry => (entry.1, { entry.2 with enabled := some true }) }

theorem sectionAt?_enableAll (key : String) :
    settings.enableAll.sectionAt? key =
      (settings.sectionAt? key).map fun rule => { rule with enabled := some true } := by
  simp only [sectionAt?, enableAll, List.find?_map, Option.map_map, Function.comp_def]

theorem section?_enableAll (kind : RuleKind) :
    settings.enableAll.section? kind =
      (settings.section? kind).map fun rule => { rule with enabled := some true } := by
  simp only [section?, sectionAt?_enableAll]
  cases settings.sectionAt? kind.name <;> simp

@[simp] theorem isEnabled_enableAll (kind : RuleKind) :
    settings.enableAll.isEnabled kind = true := by
  rw [isEnabled, section?_enableAll]
  cases settings.section? kind <;> rfl

@[simp] theorem severityFor?_enableAll (kind : RuleKind) :
    settings.enableAll.severityFor? kind = settings.severityFor? kind := by
  rw [severityFor?, section?_enableAll, severityFor?]
  cases settings.section? kind <;> rfl

end Settings

/-- A summary with only those findings that a test keeps. -/
def Summary.restrict (keep : Finding → Bool) (summary : Summary) : Summary :=
  { summary with
    reports := summary.reports.map fun report =>
      { report with findings := report.findings.filter keep } }

namespace Analyzer

variable {rules : List Rule} {kinds : List RuleKind} {settings : Settings}

theorem activeOf_filter (rules : List Rule) (kinds : List RuleKind) (settings : Settings)
    (kind : RuleKind) :
    activeOf (rules.filter fun rule => kinds.contains rule.kind) settings kind =
      if kinds.contains kind && settings.isEnabled kind then
        activeOf rules settings.enableAll kind
      else [] := by
  have both : ∀ rule ∈ rules, (decide (rule.kind = kind) && kinds.contains rule.kind) =
      (kinds.contains kind && decide (rule.kind = kind)) := by
    intro rule _
    by_cases same : rule.kind = kind <;> simp [same]
  simp only [activeOf, Settings.isEnabled_enableAll, Settings.severityFor?_enableAll, if_true,
    List.filter_filter]
  rw [List.filter_congr both]
  cases kinds.contains kind <;> cases settings.isEnabled kind <;> simp

/-- What the selected rules find on a line is what all rules find, less what is not selected. -/
theorem checkLine_filter (tidy : ∀ rule ∈ rules, rule.Tidy) (line : SourceLine) :
    (build (rules.filter fun rule => kinds.contains rule.kind) settings).checkLine line =
      ((build rules settings.enableAll).checkLine line).filter fun f =>
        kinds.contains f.kind && settings.isEnabled f.kind := by
  rw [checkLine_build, checkLine_build, List.filter_flatMap]
  congr 1
  funext kind
  have about : ∀ f ∈ (activeOf rules settings.enableAll kind).flatMap (·.check line),
      f.kind = kind := by
    intro f member
    obtain ⟨active, kept, found⟩ := List.mem_flatMap.mp member
    obtain ⟨added, same⟩ := mem_activeOf kept
    rw [ActiveRule.kind_of_mem_check (tidy _ added) found, same]
  have uniform : ∀ f ∈ (activeOf rules settings.enableAll kind).flatMap (·.check line),
      (kinds.contains f.kind && settings.isEnabled f.kind) =
        (kinds.contains kind && settings.isEnabled kind) := by
    intro f member
    rw [about f member]
  -- On the findings of one kind the test is constant, so it keeps all of them or none.
  rw [activeOf_filter, List.filter_congr uniform]
  cases kinds.contains kind && settings.isEnabled kind with
  | false => simp
  | true => exact (List.filter_eq_self.mpr fun _ _ => rfl).symm

/-- A report of fewer rules is the full one without the findings of the others. -/
theorem analyzeSource_filter (tidy : ∀ rule ∈ rules, rule.Tidy) (file content : String) :
    (build (rules.filter fun rule => kinds.contains rule.kind) settings).analyzeSource
        file content =
      ⟨file, ((build rules settings.enableAll).analyzeSource file content).findings.filter fun f =>
        kinds.contains f.kind && settings.isEnabled f.kind⟩ := by
  simp only [analyzeSource, List.filter_flatMap]
  congr 2
  funext line
  exact checkLine_filter tidy line

/-- Fewer rules give fewer findings, the files staying the same. -/
theorem summaryOf_filter (tidy : ∀ rule ∈ rules, rule.Tidy) (sources : List Source) :
    (build (rules.filter fun rule => kinds.contains rule.kind) settings).summaryOf sources =
      ((build rules settings.enableAll).summaryOf sources).restrict fun f =>
        kinds.contains f.kind && settings.isEnabled f.kind := by
  simp only [summaryOf, reportsOf, Summary.restrict, List.map_map, Function.comp_def,
    analyzeSource_filter tidy]
  rfl

end Analyzer

/-- A run of selected rules, some of which the settings may disable, is the run of all rules with
nothing disabled, restricted to the findings of the kinds that are selected and enabled. -/
theorem run_only_eq_restrict {size : Nat} (positive : 0 < size) (kinds : List RuleKind)
    (settings : Settings) (sources : List Source) :
    ∃ set, RuleSet.ofUnit size = .ok set ∧
      (Analyzer.build (set.only kinds).rules settings).run sources =
        ((Analyzer.build set.rules settings.enableAll).run sources).restrict fun f =>
          kinds.contains f.kind && settings.isEnabled f.kind := by
  refine ⟨_, RuleSet.ofUnit_of_pos positive, ?_⟩
  rw [Analyzer.run_eq, Analyzer.run_eq]
  apply Analyzer.summaryOf_filter
  intro rule member
  exact RuleSet.tidy_of_mem member

/-- One of two selected rules is disabled, and the other one, selected twice, gives warnings. -/
theorem run_only_eq_restrict_of_disabled :
    let settings : Settings :=
      ⟨none, {}, [("SL001", ⟨some false, none, []⟩), ("method-naming", ⟨none, some .warning, []⟩)]⟩
    let sources : List Source := [⟨"a", .text " é f_("⟩, ⟨"b", .unreadable "denied"⟩]
    0 < 4 ∧ ∃ set, RuleSet.ofUnit 4 = .ok set ∧
      (Analyzer.build (set.only [.methodNaming, .indentation, .methodNaming]).rules settings).run
          sources =
        ((Analyzer.build set.rules settings.enableAll).run sources).restrict fun f =>
          f.kind == .methodNaming := by
  intro settings sources
  have keep : (fun f : Finding =>
      [RuleKind.methodNaming, .indentation, .methodNaming].contains f.kind &&
        settings.isEnabled f.kind) = fun f => f.kind == .methodNaming := by
    funext f
    cases f.kind <;> decide
  obtain ⟨set, built, run⟩ := run_only_eq_restrict (by decide : 0 < 4)
    [.methodNaming, .indentation, .methodNaming] settings sources
  rw [keep] at run
  exact ⟨by decide, set, built, run⟩

end LineLint
