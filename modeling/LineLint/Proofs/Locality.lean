import LineLint.Proofs.ReportOrder

/-! # Findings belong to their lines

No built-in rule looks beyond the line that it is given, nor at the number of that line other than to
report it. So the findings in a text behind terminated lines are its own findings, further down, and
to replace a line is to replace the findings on that line.
-/

namespace LineLint

def Finding.moveDown (count : Nat) (f : Finding) : Finding :=
  { f with location := { f.location with line := f.location.line + count } }

/-- A rule finds the same on a line wherever the line stands. -/
def Rule.Stationary (rule : Rule) : Prop :=
  ∀ count line, rule.check (line.moveDown count) = (rule.check line).map (Finding.moveDown count)

/-- The built-in rules look at a line and not at its number. -/
theorem Rule.BuiltIn.stationary {rule : Rule} (builtIn : rule.BuiltIn) : rule.Stationary := by
  intro count line
  cases builtIn with
  | indentation unit severity =>
    change Rules.Indentation.check unit severity (line.moveDown count) =
      (Rules.Indentation.check unit severity line).map (Finding.moveDown count)
    rw [Rules.Indentation.check, Rules.Indentation.check, apply_ite (List.map _)]
    rfl
  | variableNaming severity =>
    change Rules.VariableNaming.check severity (line.moveDown count) =
      (Rules.VariableNaming.check severity line).map (Finding.moveDown count)
    rw [Rules.VariableNaming.check, Rules.VariableNaming.check, List.map_map]
    rfl
  | methodNaming severity =>
    change Rules.MethodNaming.check severity (line.moveDown count) =
      (Rules.MethodNaming.check severity line).map (Finding.moveDown count)
    rw [Rules.MethodNaming.check, Rules.MethodNaming.check, List.map_map]
    rfl

theorem ActiveRule.check_moveDown {active : ActiveRule} (stationary : active.rule.Stationary)
    (count : Nat) (line : SourceLine) :
    active.check (line.moveDown count) = (active.check line).map (Finding.moveDown count) := by
  rw [check_eq, check_eq, stationary, List.map_map, List.map_map]
  rfl

namespace Analyzer

variable {analyzer : Analyzer}

theorem checkLine_moveDown (stationary : ∀ active ∈ analyzer.active, active.rule.Stationary)
    (count : Nat) (line : SourceLine) :
    analyzer.checkLine (line.moveDown count) =
      (analyzer.checkLine line).map (Finding.moveDown count) := by
  rw [checkLine, checkLine, List.map_flatMap]
  apply List.flatMap_congr
  intro active member
  exact ActiveRule.check_moveDown (stationary active member) count line

/-- The findings in a text behind terminated lines are its own findings, further down. -/
theorem findings_append (stationary : ∀ active ∈ analyzer.active, active.rule.Stationary)
    (file : String) {front : String} (terminated : Text.IsTerminated front.toList)
    (back : String) :
    (analyzer.analyzeSource file (front ++ back)).findings =
      (analyzer.analyzeSource file front).findings ++
        (analyzer.analyzeSource file back).findings.map
          (Finding.moveDown (Text.lines front.toList).length) := by
  simp only [analyzeSource]
  rw [SourceLine.ofContent_append file terminated, List.flatMap_append, List.flatMap_map,
    List.map_flatMap]
  simp only [checkLine_moveDown stationary]

/-- The findings on the lines but one, where that one line is a text of its own: those in front of
it, and those behind it. -/
theorem filter_findings_around (stationary : ∀ active ∈ analyzer.active, active.rule.Stationary)
    (tidy : ∀ active ∈ analyzer.active, active.rule.Tidy) (file : String) {front line : String}
    (back : String) (terminated : Text.IsTerminated front.toList)
    (ends : back = "" ∨ Text.IsTerminated line.toList)
    (one : (Text.lines line.toList).length = 1) :
    let number := (Text.lines front.toList).length + 1
    (analyzer.analyzeSource file (front ++ line ++ back)).findings.filter
        (fun f => f.location.line ≠ number) =
      ((analyzer.analyzeSource file front).findings ++
        (analyzer.analyzeSource file back).findings.map (Finding.moveDown number)).filter
          fun f => f.location.line ≠ number := by
  intro number
  have onLine : ((analyzer.analyzeSource file line).findings.map
      (Finding.moveDown (Text.lines front.toList).length)).filter
        (fun f => f.location.line ≠ number) = [] := by
    rw [List.filter_map, List.map_eq_nil_iff, List.filter_eq_nil_iff]
    intro f member
    obtain ⟨low, high⟩ := number_of_mem_analyzeSource tidy member
    have first : f.location.line = 1 := by omega
    simp [Finding.moveDown, number, first, Nat.add_comm]
  have split : (analyzer.analyzeSource file (line ++ back)).findings =
      (analyzer.analyzeSource file line).findings ++
        (analyzer.analyzeSource file back).findings.map (Finding.moveDown 1) := by
    rcases ends with rfl | ends
    · simp [analyzeSource, SourceLine.ofContent, Text.lines_nil, SourceLine.ofTexts,
        SourceLine.numberFrom]
    · rw [findings_append stationary file ends, one]
  have further : Finding.moveDown (Text.lines front.toList).length ∘ Finding.moveDown 1 =
      Finding.moveDown number := by
    funext f
    simp only [Function.comp_apply, Finding.moveDown, number, Nat.add_assoc, Nat.add_comm 1]
  rw [String.append_assoc, findings_append stationary file terminated, split, List.map_append,
    List.map_map, further, List.filter_append, List.filter_append, onLine, List.nil_append,
    List.filter_append]

end Analyzer

/-- Whatever built-in rules an analyzer has and whatever is set, the findings in a file that goes on
behind terminated lines are those of the lines, followed by those of what goes on with their numbers
raised by the number of the lines. And if one line of a file is replaced by another one, the findings
on all other lines stay as they are. -/
theorem findings_belong_to_lines {rules : List Rule} (builtIn : ∀ rule ∈ rules, rule.BuiltIn)
    (settings : Settings) (file : String) :
    let findings := fun content =>
      ((Analyzer.build rules settings).analyzeSource file content).findings
    (∀ front back : String, Text.IsTerminated front.toList →
      findings (front ++ back) =
        findings front ++ (findings back).map
          (Finding.moveDown (Text.lines front.toList).length)) ∧
      ∀ front old new back : String, Text.IsTerminated front.toList →
        (Text.lines old.toList).length = 1 → (Text.lines new.toList).length = 1 →
        back = "" ∨ Text.IsTerminated old.toList ∧ Text.IsTerminated new.toList →
        let number := (Text.lines front.toList).length + 1
        (findings (front ++ new ++ back)).filter (fun f => f.location.line ≠ number) =
          (findings (front ++ old ++ back)).filter fun f => f.location.line ≠ number := by
  intro findings
  have stationary : ∀ active ∈ (Analyzer.build rules settings).active,
      active.rule.Stationary := by
    intro active member
    exact (builtIn _ (Analyzer.mem_of_mem_build member)).stationary
  have tidy : ∀ active ∈ (Analyzer.build rules settings).active, active.rule.Tidy := by
    intro active member
    exact (builtIn _ (Analyzer.mem_of_mem_build member)).tidy
  refine ⟨?_, ?_⟩
  · intro front back terminated
    exact Analyzer.findings_append stationary file terminated back
  · intro front old new back terminated oneOld oneNew ends number
    have withOld := Analyzer.filter_findings_around stationary tidy file back terminated
      (ends.imp_right And.left) oneOld
    have withNew := Analyzer.filter_findings_around stationary tidy file back terminated
      (ends.imp_right And.right) oneNew
    exact withNew.trans withOld.symm

/-- The text in front ends with an empty line, and the text behind begins with one. -/
theorem findings_belong_to_mixed_lines :
    let rules := ((RuleSet.ofIndentUnit .default).only [.methodNaming, .indentation]).rules
    let settings : Settings := ⟨none, {}, [("SL001", ⟨none, some .warning, []⟩)]⟩
    let findings := fun content =>
      ((Analyzer.build rules settings).analyzeSource "a" content).findings
    (∀ rule ∈ rules, rule.BuiltIn) ∧ Text.IsTerminated " x\r\n\n".toList ∧
      Text.IsTerminated " z_(\n".toList ∧ Text.IsTerminated "\r\n".toList ∧
      findings (" x\r\n\n" ++ "\n é f_(") =
        findings " x\r\n\n" ++ (findings "\n é f_(").map (Finding.moveDown 2) ∧
      (findings (" x\r\n\n" ++ "\r\n" ++ "\n é f_(")).filter (fun f => f.location.line ≠ 3) =
        (findings (" x\r\n\n" ++ " z_(\n" ++ "\n é f_(")).filter fun f => f.location.line ≠ 3 := by
  intro rules settings findings
  have builtIn : ∀ rule ∈ rules, rule.BuiltIn := by
    intro rule member
    exact RuleSet.builtIn_of_mem (List.mem_filter.mp member).1
  obtain ⟨behind, replaced⟩ := findings_belong_to_lines builtIn settings "a"
  have terminated : Text.IsTerminated " x\r\n\n".toList := by decide
  have old : Text.IsTerminated " z_(\n".toList := by decide
  have new : Text.IsTerminated "\r\n".toList := by decide
  refine ⟨builtIn, terminated, old, new, behind _ _ terminated, ?_⟩
  exact replaced _ _ _ _ terminated (by decide) (by decide) (.inr ⟨old, new⟩)

end LineLint
