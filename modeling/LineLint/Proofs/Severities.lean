import LineLint.Proofs.Registration
import LineLint.Proofs.Schedule
import LineLint.Rules.Occurrence

/-! # What severities change

The settings may give a severity to what the rules of a kind find, and name the severity at which a
run fails. Neither decides which rules run or what they find: a run finds what its rules find by
themselves, and only then is each finding given the severity that is set for the kind of the rule
that made it.
-/

namespace LineLint

def RuleSettings.withoutSeverity (rule : RuleSettings) : RuleSettings :=
  { rule with severity := none }

namespace Settings

/-- Settings that differ in nothing but the threshold and the severities in their sections. -/
structure SameButSeverities (a b : Settings) : Prop where
  scan : a.scan = b.scan
  sections : ∀ key, (a.sectionAt? key).map RuleSettings.withoutSeverity =
    (b.sectionAt? key).map RuleSettings.withoutSeverity

theorem isEnabled_eq_of_withoutSeverity (settings : Settings) (kind : RuleKind) :
    settings.isEnabled kind =
      (((settings.section? kind).map RuleSettings.withoutSeverity).bind
        RuleSettings.enabled).getD true := by
  rw [isEnabled]
  cases settings.section? kind <;> rfl

namespace SameButSeverities

variable {a b : Settings}

theorem section?_eq (same : a.SameButSeverities b) (kind : RuleKind) :
    (a.section? kind).map RuleSettings.withoutSeverity =
      (b.section? kind).map RuleSettings.withoutSeverity := by
  simp only [section?, Option.map_or, same.sections]

theorem isEnabled_eq (same : a.SameButSeverities b) (kind : RuleKind) :
    a.isEnabled kind = b.isEnabled kind := by
  rw [isEnabled_eq_of_withoutSeverity, same.section?_eq, ← isEnabled_eq_of_withoutSeverity]

/-- Severities switch no rule on or off. -/
theorem running_eq (same : a.SameButSeverities b) (rules : List Rule) :
    Analyzer.running rules a = Analyzer.running rules b := by
  simp only [Analyzer.running, same.isEnabled_eq]

end SameButSeverities

/-- A finding with the severity that is set for the kind of the rule that made it, if one is. -/
def judge (settings : Settings) (found : RuleKind × Finding) : Finding :=
  { found.2 with severity := (settings.severityFor? found.1).getD found.2.severity }

end Settings

/-- What rules find in a text by themselves, each finding with the kind of the rule that made it. -/
def Rule.finds (rules : List Rule) (file content : String) : List (RuleKind × Finding) :=
  (SourceLine.ofContent file content).flatMap fun line =>
    rules.flatMap fun rule => (rule.check line).map fun f => (rule.kind, f)

namespace Finding

/-- A finding but for its severity. -/
def eraseSeverity (f : Finding) : Finding := { f with severity := .info }

theorem eraseSeverity_judge (settings : Settings) (found : RuleKind × Finding) :
    (settings.judge found).eraseSeverity = found.2.eraseSeverity := rfl

end Finding

def Summary.eraseSeverities (summary : Summary) : Summary :=
  { summary with
    reports := summary.reports.map fun report =>
      { report with findings := report.findings.map Finding.eraseSeverity } }

namespace Analyzer

/-- The severities are given last. -/
theorem analyzeSource_build (rules : List Rule) (settings : Settings) (file content : String) :
    (build rules settings).analyzeSource file content =
      ⟨file, (Rule.finds (running rules settings) file content).map settings.judge⟩ := by
  rw [analyzeSource, Rule.finds, List.map_flatMap]
  congr 1
  apply List.flatMap_congr
  intro line _
  rw [checkLine_eq_flatMap_running, List.map_flatMap]
  apply List.flatMap_congr
  intro rule _
  rw [List.map_map]
  rfl

/-- A run is that of the rules alone, each finding then given its severity. -/
theorem run_build (rules : List Rule) (settings : Settings) (sources : List Source) :
    (build rules settings).run sources =
      ⟨(sources.filterMap Source.text?).map fun file =>
          ⟨file.1, (Rule.finds (running rules settings) file.1 file.2).map settings.judge⟩,
        sources.filterMap Source.unreadable?⟩ := by
  rw [run_eq, summaryOf, reportsOf]
  simp only [analyzeSource_build]

end Analyzer

/-- Under settings that differ in severities alone, two runs of the same rules over the same files
differ in nothing but the severities of their findings. In both, the findings are what the rules
that run find by themselves, and each has the severity that is set for the kind of its rule, or else
the one that the rule gave it. -/
theorem severities_change_nothing_else {a b : Settings} (same : a.SameButSeverities b)
    (rules : List Rule) (sources : List Source) :
    let run := fun settings => (Analyzer.build rules settings).run sources
    (run a).eraseSeverities = (run b).eraseSeverities ∧
      ∀ settings, settings = a ∨ settings = b →
        run settings =
          ⟨(sources.filterMap Source.text?).map fun file =>
              ⟨file.1, (Rule.finds (Analyzer.running rules a) file.1 file.2).map fun found =>
                { found.2 with
                  severity := (settings.severityFor? found.1).getD found.2.severity }⟩,
            sources.filterMap Source.unreadable?⟩ := by
  intro run
  refine ⟨?_, ?_⟩
  · simp only [run, Analyzer.run_build, Summary.eraseSeverities, List.map_map, Function.comp_def,
      Finding.eraseSeverity_judge, same.running_eq]
  · rintro settings (rfl | rfl)
    · exact Analyzer.run_build rules settings sources
    · rw [same.running_eq]
      exact Analyzer.run_build rules settings sources

/-- A rule about the names of variables reports the name of a method, so its findings get the
severity of the former kind and not that of the latter. -/
theorem severities_change_nothing_else_of_stray_kind :
    let stray : Rule := ⟨.variableNaming, "", .info,
      fun line => [⟨.methodNaming, .info, ⟨line.file, line.number, 1⟩, "", "stray"⟩]⟩
    let rules := [Rules.occurrence .methodNaming "x", stray, Rules.indentation ⟨2, by decide⟩]
    let sources : List Source := [⟨"a", .text "\r\n x"⟩, ⟨"b", .unreadable "denied"⟩]
    let a : Settings :=
      ⟨none, {}, [("SL003", ⟨none, some .info, []⟩), ("indentation", ⟨none, none, []⟩)]⟩
    let b : Settings :=
      ⟨some .info, {}, [("SL003", ⟨none, some .warning, []⟩),
        ("indentation", ⟨none, some .info, []⟩)]⟩
    a.SameButSeverities b ∧
      ((Analyzer.build rules a).run sources).eraseSeverities =
        ((Analyzer.build rules b).run sources).eraseSeverities ∧
      (Analyzer.build rules b).run sources =
        ⟨[⟨"a", [⟨.methodNaming, .info, ⟨"a", 1, 1⟩, "", "stray"⟩,
            ⟨.indentation, .info, ⟨"a", 2, 1⟩, " x",
              Rules.Indentation.message 1 ⟨2, by decide⟩⟩,
            ⟨.methodNaming, .info, ⟨"a", 2, 1⟩, "", "stray"⟩,
            ⟨.methodNaming, .warning, ⟨"a", 2, 2⟩, "x", "found"⟩]⟩],
          [⟨"b", "denied"⟩]⟩ := by
  intro stray rules sources a b
  have sections : ∀ settings : Settings, ∀ key,
      (settings.sectionAt? key).map RuleSettings.withoutSeverity =
        ((settings.rules.map fun entry => (entry.1, entry.2.withoutSeverity)).find?
          fun entry => entry.1 == key).map Prod.snd := by
    intro settings key
    simp only [Settings.sectionAt?, List.find?_map, Option.map_map, Function.comp_def]
  have same : a.SameButSeverities b := by
    refine ⟨rfl, fun key => ?_⟩
    rw [sections, sections]
    rfl
  obtain ⟨erased, runs⟩ := severities_change_nothing_else same rules sources
  refine ⟨same, erased, (runs b (.inr rfl)).trans ?_⟩
  decide

end LineLint
