import LineLint.Ignore.Global
import LineLint.Proofs.Sections
import LineLint.Settings.Starter

/-! # The settings of the starter file

The starter file sets every rule as it is anyway. The settings that are read from it differ from those
where nothing is set, but no run and no check tells them apart.
-/

namespace LineLint

namespace Settings

/-- What the starter file says: what is set anyway. -/
def starterSettings : Settings where
  failOn := some .error
  rules := [("indentation", ⟨some true, none, [("indent_unit", .integer 4)]⟩),
    ("variable-naming", ⟨some true, none, []⟩), ("method-naming", ⟨some true, none, []⟩)]

theorem toList_starter :
    starter.toList = starterLines.flatMap fun line => line.toList ++ ['\n'] := by
  simp [starter, List.flatMap_map]

/-- The starter file says what is set anyway. -/
theorem ofText?_starter : ofText? starter.toList = some starterSettings := by
  rw [toList_starter]
  decide +kernel

/-- Read as a configuration of git, the starter file names no ignore file. -/
theorem excludesFile?_starter :
    Ignore.Global.excludesFile? (Text.Utf8.encode starter.toList) = none := by
  rw [toList_starter]
  decide +kernel

/-- No run tells the settings of the starter file from those where nothing is set. -/
theorem runAlike_starter : starterSettings.RunAlike .default := by
  have enabled : ∀ kind, starterSettings.isEnabled kind = Settings.default.isEnabled kind := by
    intro kind
    cases kind <;> rfl
  have severity : ∀ kind,
      starterSettings.severityFor? kind = Settings.default.severityFor? kind := by
    intro kind
    cases kind <;> rfl
  have ruleSet : RuleSet.ofSettings starterSettings = RuleSet.ofSettings .default := rfl
  have build : ∀ rules,
      Analyzer.build rules starterSettings = Analyzer.build rules .default := by
    intro rules
    simp only [Analyzer.build, enabled, severity]
  refine ⟨ruleSet, fun rules sources => by rw [build], rfl, fun options => ?_⟩
  exact .of_alike_runs rfl rfl ruleSet fun set _ sources => by rw [build]

end Settings

end LineLint
