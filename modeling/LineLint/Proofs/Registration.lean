import LineLint.Proofs.RuleOrder
import LineLint.Rules.Indentation
import LineLint.Rules.Occurrence

/-! # The order in which rules are added

Rules of different kinds may be added in any order, whatever they do: only the order of the rules of
one kind matters. The findings on a line come kind by kind, and within a kind rule by rule in the
order in which the rules were added.
-/

namespace LineLint

/-- What a rule finds on a line, with the severity that the settings give to its kind. -/
def Settings.findingsOf (settings : Settings) (line : SourceLine) (rule : Rule) : List Finding :=
  (rule.check line).map fun f =>
    { f with severity := (settings.severityFor? rule.kind).getD f.severity }

namespace Analyzer

variable {rules others : List Rule}

/-- The active rules are the enabled ones, however they are sorted. -/
theorem ruleCount_build (rules : List Rule) (settings : Settings) :
    (build rules settings).ruleCount = rules.countP fun rule => settings.isEnabled rule.kind := by
  simp [ruleCount, build, List.countP_eq_length_filter]

/-- Only the order among rules of one kind matters. -/
theorem build_eq_of_same_order
    (sameOrder : ∀ kind : RuleKind,
      rules.filter (fun rule => rule.kind = kind) = others.filter fun rule => rule.kind = kind)
    (settings : Settings) : build rules settings = build others settings := by
  have kinds : ∀ kind, activeOf rules settings kind = activeOf others settings kind := by
    intro kind
    rw [activeOf, activeOf, sameOrder]
  have active : (build rules settings).active = (build others settings).active := by
    rw [build_eq, build_eq, funext kinds]
  exact congrArg Analyzer.mk active

/-- What the active rules of a kind find on a line. -/
theorem flatMap_check_activeOf (rules : List Rule) (settings : Settings) (kind : RuleKind)
    (line : SourceLine) :
    ((activeOf rules settings kind).flatMap fun active => active.check line) =
      (rules.filter fun rule => rule.kind = kind && settings.isEnabled rule.kind).flatMap
        (settings.findingsOf line) := by
  have enabled : ∀ rule ∈ rules, (decide (rule.kind = kind) && settings.isEnabled rule.kind) =
      (decide (rule.kind = kind) && settings.isEnabled kind) := by
    intro rule _
    by_cases same : rule.kind = kind <;> simp [same]
  rw [List.filter_congr enabled, activeOf]
  cases settings.isEnabled kind with
  | false => simp
  | true =>
    simp only [if_true, List.flatMap_map, Bool.and_true]
    apply List.flatMap_congr
    intro rule member
    rw [ActiveRule.check_eq, Settings.findingsOf, of_decide_eq_true (List.mem_filter.mp member).2]

/-- The rules that run on every line, in the order in which they run. -/
def running (rules : List Rule) (settings : Settings) : List Rule :=
  RuleKind.all.flatMap fun kind =>
    rules.filter fun rule => rule.kind = kind && settings.isEnabled rule.kind

theorem checkLine_eq_flatMap_running (rules : List Rule) (settings : Settings)
    (line : SourceLine) :
    (build rules settings).checkLine line =
      (running rules settings).flatMap (settings.findingsOf line) := by
  rw [checkLine_build, running, List.flatMap_assoc]
  apply List.flatMap_congr
  intro kind _
  exact flatMap_check_activeOf rules settings kind line

end Analyzer

/-- Two lists of the same rules, in which the rules of each kind come in the same order, make
analyzers that run equally many rules and report the same. On a line they report what the enabled
rules find, kind by kind, and within a kind in the order of the list. -/
theorem added_in_any_order {rules others : List Rule} (permuted : rules.Perm others)
    (sameOrder : ∀ kind : RuleKind,
      rules.filter (fun rule => rule.kind = kind) = others.filter fun rule => rule.kind = kind)
    (settings : Settings) :
    let analyzer := Analyzer.build rules settings
    let other := Analyzer.build others settings
    analyzer.ruleCount = other.ruleCount ∧
      (∀ file texts, analyzer.analyzeLines file texts = other.analyzeLines file texts) ∧
      (∀ file content, analyzer.analyzeSource file content = other.analyzeSource file content) ∧
      (∀ sources, analyzer.run sources = other.run sources) ∧
      ∀ line, analyzer.checkLine line =
        [.indentation, .variableNaming, .methodNaming].flatMap fun kind : RuleKind =>
          (rules.filter fun rule => rule.kind = kind && settings.isEnabled rule.kind).flatMap
            (settings.findingsOf line) := by
  intro analyzer other
  have same : analyzer = other := Analyzer.build_eq_of_same_order sameOrder settings
  refine ⟨?_, ?_, ?_, ?_, ?_⟩
  · rw [Analyzer.ruleCount_build, Analyzer.ruleCount_build]
    exact permuted.countP_eq _
  · intro file texts
    rw [same]
  · intro file content
    rw [same]
  · intro sources
    rw [same]
  · intro line
    rw [Analyzer.checkLine_build]
    apply List.flatMap_congr
    intro kind _
    exact Analyzer.flatMap_check_activeOf rules settings kind line

/-- Two rules of one kind keep their order around a rule of another kind, which comes first. -/
theorem added_around_another_kind :
    let x := Rules.occurrence .methodNaming "x"
    let y := Rules.occurrence .methodNaming "y"
    let indentation := Rules.indentation ⟨2, by decide⟩
    let settings : Settings := ⟨none, {}, [("SL003", ⟨none, some .info, []⟩)]⟩
    [x, indentation, y].Perm [indentation, x, y] ∧
      (∀ kind : RuleKind, [x, indentation, y].filter (fun rule => rule.kind = kind) =
        [indentation, x, y].filter fun rule => rule.kind = kind) ∧
      (Analyzer.build [x, indentation, y] settings).analyzeLines "a" [" yx"] =
        (Analyzer.build [indentation, x, y] settings).analyzeLines "a" [" yx"] ∧
      (Analyzer.build [x, indentation, y] settings).checkLine ⟨"a", 1, " yx"⟩ =
        [⟨.indentation, .error, ⟨"a", 1, 1⟩, " yx", Rules.Indentation.message 1 ⟨2, by decide⟩⟩,
          ⟨.methodNaming, .info, ⟨"a", 1, 3⟩, "x", "found"⟩,
          ⟨.methodNaming, .info, ⟨"a", 1, 2⟩, "y", "found"⟩] := by
  intro x y indentation settings
  have permuted : [x, indentation, y].Perm [indentation, x, y] := .swap indentation x [y]
  have sameOrder : ∀ kind : RuleKind, [x, indentation, y].filter (fun rule => rule.kind = kind) =
      [indentation, x, y].filter fun rule => rule.kind = kind := by
    intro kind
    cases kind <;> rfl
  obtain ⟨_, reports, _, _, line⟩ := added_in_any_order permuted sameOrder settings
  refine ⟨permuted, sameOrder, reports "a" [" yx"], ?_⟩
  rw [line]
  decide

end LineLint
