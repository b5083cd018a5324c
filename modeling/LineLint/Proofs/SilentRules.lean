import LineLint.Proofs.BuiltIn
import LineLint.Proofs.Schedule
import LineLint.Proofs.Sections
import LineLint.Proofs.Words

/-! # A rule that finds nothing

The rule about the names of variables asks of a word no more than what makes it a candidate. So it
looks at words and objects to none, and every run is the same without it, whatever the settings say
of the rules of its kind.
-/

namespace LineLint

/-- A rule that finds nothing on any line. -/
def Rule.Silent (rule : Rule) : Prop := ∀ line, rule.check line = []

theorem ActiveRule.check_of_silent {active : ActiveRule} (silent : active.rule.Silent)
    (line : SourceLine) : active.check line = [] := by
  rw [check_eq, silent, List.map_nil]

namespace Rules.VariableNaming

open Text

theorem silent (severity : Severity) : (variableNaming severity).Silent := check_eq_nil severity

/-- A line that is a name in camel case has a candidate. -/
theorem candidates_ne_nil {name : List Char} (camel : isCamelCase name = true) :
    candidates name ≠ [] := by
  have plain : isPlain name = true := isCamelCase_eq_isPlain name ▸ camel
  obtain ⟨first, rest, nonempty, -⟩ := isPlain_iff.mp plain
  have isWord : WordAt name [] name :=
    ⟨by simp [nonempty], isWordChar_of_isPlain plain, by simp, [], by simp, by simp⟩
  have member : ⟨0, name⟩ ∈ words name := mem_words_iff.mpr ⟨[], isWord, rfl⟩
  rw [candidates_eq_filter_words]
  exact List.ne_nil_of_mem (List.mem_filter.mpr ⟨member, plain⟩)

end Rules.VariableNaming

def RuleSet.without (set : RuleSet) (kind : RuleKind) : RuleSet :=
  ⟨set.rules.filter fun rule => rule.kind ≠ kind⟩

/-- Settings that differ in nothing but the section that governs a kind. -/
structure Settings.SameBut (kind : RuleKind) (a b : Settings) : Prop where
  failOn : a.failOn = b.failOn
  scan : a.scan = b.scan
  section_eq : ∀ other, other ≠ kind → a.section? other = b.section? other

namespace Analyzer

variable {rules : List Rule} {kind : RuleKind}

/-- The rules of a silent kind add nothing to what is found on a line. -/
theorem flatMap_check_of_silent (silent : ∀ rule ∈ rules, rule.kind = kind → rule.Silent)
    (settings : Settings) (line : SourceLine) :
    ((activeOf rules settings kind).flatMap fun active => active.check line) = [] := by
  apply List.flatMap_eq_nil_iff.mpr
  intro active member
  obtain ⟨added, same⟩ := mem_activeOf member
  exact ActiveRule.check_of_silent (silent _ added same) line

/-- Runs are the same if they differ in nothing but rules of a kind that is silent in both. -/
theorem run_eq_of_silent {others : List Rule} {a b : Settings}
    (silent : ∀ rule ∈ rules, rule.kind = kind → rule.Silent)
    (silent' : ∀ rule ∈ others, rule.kind = kind → rule.Silent)
    (same : ∀ other, other ≠ kind → activeOf rules a other = activeOf others b other)
    (sources : List Source) : (build rules a).run sources = (build others b).run sources := by
  refine run_congr (fun line => ?_) sources
  rw [checkLine_build, checkLine_build]
  apply List.flatMap_congr
  intro other _
  by_cases here : other = kind
  · rw [here, flatMap_check_of_silent silent, flatMap_check_of_silent silent']
  · rw [same other here]

theorem activeOf_without_of_ne {other : RuleKind} (different : other ≠ kind) (rules : List Rule)
    (settings : Settings) :
    activeOf (rules.filter fun rule => rule.kind ≠ kind) settings other =
      activeOf rules settings other := by
  have kept : ∀ rule ∈ rules, (decide (rule.kind = other) && decide (rule.kind ≠ kind)) =
      decide (rule.kind = other) := by
    intro rule _
    by_cases same : rule.kind = other <;> simp [same, different]
  rw [activeOf, activeOf, List.filter_filter, List.filter_congr kept]

variable (silent : ∀ rule ∈ rules, rule.kind = kind → rule.Silent)
include silent

/-- A rule that never reports may be left out. -/
theorem run_without (settings : Settings) (sources : List Source) :
    (build (rules.filter fun rule => rule.kind ≠ kind) settings).run sources =
      (build rules settings).run sources := by
  refine run_eq_of_silent ?_ silent ?_ sources
  · intro rule member
    exact silent rule (List.mem_filter.mp member).1
  · intro other different
    exact activeOf_without_of_ne different rules settings

/-- Nor do its settings matter. -/
theorem run_of_sameBut {a b : Settings} (same : a.SameBut kind b) (sources : List Source) :
    (build rules a).run sources = (build rules b).run sources := by
  refine run_eq_of_silent silent silent ?_ sources
  intro other different
  have enabled : a.isEnabled other = b.isEnabled other := by
    rw [Settings.isEnabled, Settings.isEnabled, same.section_eq other different]
  have severity : a.severityFor? other = b.severityFor? other := by
    rw [Settings.severityFor?, Settings.severityFor?, same.section_eq other different]
  rw [activeOf, activeOf, enabled, severity]

end Analyzer

namespace RuleSet

/-- However built-in rules are selected, those about the names of variables find nothing. -/
theorem silent_of_mem {unit : Rules.IndentUnit} {rules : List Rule}
    (selected : rules ⊆ (ofIndentUnit unit).rules) :
    ∀ rule ∈ rules, rule.kind = .variableNaming → rule.Silent := by
  intro rule member
  cases builtIn_of_mem (selected member) with
  | variableNaming severity => exact fun _ => Rules.VariableNaming.silent severity
  | indentation unit severity | methodNaming severity => exact nofun

theorem rules_only_subset (set : RuleSet) (kinds : List RuleKind) :
    (set.only kinds).rules ⊆ set.rules := List.filter_subset_self _

end RuleSet

theorem CheckOptions.rules_select_subset (options : CheckOptions) (set : RuleSet) :
    (options.select set).rules ⊆ set.rules := List.filter_subset_self _

section Change

variable {change : RuleSet → RuleSet} {options : CheckOptions}
  (run : ∀ settings set, options.ruleSet settings = .ok set → ∀ sources,
    (Analyzer.build (change set).rules settings).run sources =
      (Analyzer.build set.rules settings).run sources)
include run

theorem Disk.summaryWith?_eq_summary? (disk : Disk) (settings : Settings) :
    disk.summaryWith? change options settings = disk.summary? options settings := by
  rw [summaryWith?_eq, summary?_eq]
  split
  · refine bind_congr_of_ok fun set built => ?_
    simp only [run _ set built]
  · rfl

/-- A check prints the same if the rules that it runs find the same before and after the change. -/
theorem Workspace.checkWith_eq_checkBy (w : Workspace) (disk : Disk) (file : Option Path) :
    w.checkWith disk change options file = w.checkBy disk options file := by
  have same : disk.summaryWith? change options = disk.summary? options :=
    funext (disk.summaryWith?_eq_summary? run)
  rw [checkWith, same]
  rfl

end Change

/-- The built-in rule about the names of variables finds nothing on any line, although it has
candidates to look at. So whatever rules are selected, a run reports the same without it, a check
ends and prints the same without it, and settings that differ in nothing but what they say of its
kind make the same rules, the same runs and the same checks. -/
theorem variable_naming_changes_nothing :
    (∀ severity line, (Rules.variableNaming severity).check line = []) ∧
      (∀ name, Rules.VariableNaming.isCamelCase name = true →
        Rules.VariableNaming.candidates name ≠ []) ∧
      (∀ unit kinds settings sources,
        let set := (RuleSet.ofIndentUnit unit).only kinds
        (Analyzer.build (set.without .variableNaming).rules settings).run sources =
          (Analyzer.build set.rules settings).run sources) ∧
      (∀ (w : Workspace) disk options file,
        w.checkWith disk (·.without .variableNaming) options file =
          w.checkBy disk options file) ∧
      ∀ a b : Settings, a.SameBut .variableNaming b →
        RuleSet.ofSettings a = RuleSet.ofSettings b ∧
          (∀ unit kinds sources,
            let set := (RuleSet.ofIndentUnit unit).only kinds
            (Analyzer.build set.rules a).run sources = (Analyzer.build set.rules b).run sources) ∧
          ∀ options, SameChecks options a options b := by
  refine ⟨Rules.VariableNaming.silent, fun _ => Rules.VariableNaming.candidates_ne_nil,
    ?_, ?_, ?_⟩
  · intro unit kinds settings sources set
    exact Analyzer.run_without (RuleSet.silent_of_mem (RuleSet.rules_only_subset _ kinds)) _ sources
  · intro w disk options file
    refine Workspace.checkWith_eq_checkBy ?_ w disk file
    intro settings set built sources
    obtain ⟨unit, _, rfl⟩ := CheckOptions.exists_unit_of_ruleSet built
    exact Analyzer.run_without (RuleSet.silent_of_mem (options.rules_select_subset _)) _ sources
  · intro a b same
    have made : RuleSet.ofSettings a = RuleSet.ofSettings b := by
      simp only [RuleSet.ofSettings, RuleSet.unitOf, Settings.option?,
        same.section_eq .indentation (by decide)]
    refine ⟨made, ?_, ?_⟩
    · intro unit kinds sources set
      exact Analyzer.run_of_sameBut
        (RuleSet.silent_of_mem (RuleSet.rules_only_subset _ kinds)) same sources
    · intro options
      refine .of_runs same.failOn same.scan made ?_
      intro set built sources
      obtain ⟨unit, _, rfl⟩ := CheckOptions.exists_unit_of_ruleSet built
      exact Analyzer.run_of_sameBut
        (RuleSet.silent_of_mem (options.rules_select_subset _)) same sources

/-- A word in camel case is looked at, and neither a severity for the rule nor its absence shows. -/
theorem variable_naming_changes_nothing_in_a_call :
    let a : Settings :=
      ⟨none, {}, [("variable-naming", ⟨none, some .info, [("style", .string "snake")]⟩)]⟩
    let b : Settings := ⟨none, {}, [("SL002", ⟨some false, none, []⟩)]⟩
    let set := (RuleSet.ofIndentUnit .default).only [.methodNaming, .variableNaming]
    let sources : List Source := [⟨"a", .text " camelCase("⟩, ⟨"b", .unreadable "denied"⟩]
    Rules.VariableNaming.isCamelCase "camelCase".toList = true ∧
      Rules.VariableNaming.candidates "camelCase".toList ≠ [] ∧ a.SameBut .variableNaming b ∧
      (Analyzer.build set.rules a).run sources = (Analyzer.build set.rules b).run sources ∧
      (set.without .variableNaming).size = 1 ∧
      (Analyzer.build (set.without .variableNaming).rules a).run sources =
        (Analyzer.build set.rules a).run sources ∧
      ∀ options, SameChecks options a options b := by
  intro a b set sources
  obtain ⟨_, looksAt, without, _, same⟩ := variable_naming_changes_nothing
  have camel : Rules.VariableNaming.isCamelCase "camelCase".toList = true := by decide
  have alike : a.SameBut .variableNaming b := by
    refine ⟨rfl, rfl, ?_⟩
    intro kind other
    cases kind with
    | variableNaming => exact absurd rfl other
    | indentation | methodNaming => rfl
  obtain ⟨_, runs, checks⟩ := same a b alike
  exact ⟨camel, looksAt _ camel, alike, runs _ _ sources, rfl, without _ _ a sources, checks⟩

end LineLint
