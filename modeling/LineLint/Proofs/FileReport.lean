import LineLint.Proofs.BuiltIn

/-! # The report on a file

The report of the built-in rules on a file holds exactly the violations on its lines.
-/

namespace LineLint

/-- What the built-in rules object to on a line, the column and the text that they name. The blanks
in front of the line may be no multiple of the indent unit, or the name at a call site may begin
with no capital letter or hold an underscore. -/
inductive Violation (size : Nat) (line : List Char) : RuleKind → Nat → List Char → Prop
  | indentation (uneven : ¬ size ∣ (line.takeWhile Text.isBlank).length) :
      Violation size line .indentation 1 line
  | methodNaming {front name : List Char} (site : Rules.MethodNaming.CallSite line front name)
      (missed : (∀ c ∈ name.head?, c.isUpper = false) ∨ '_' ∈ name) :
      Violation size line .methodNaming (front.length + 1) name

namespace Analyzer

variable {unit : Rules.IndentUnit} {line : SourceLine} {f : Finding}

/-- Settings where nothing is set leave the findings of the rules as they are. -/
theorem mem_checkLine_default :
    f ∈ (build (RuleSet.ofIndentUnit unit).rules .default).checkLine line ↔
      f ∈ Rules.Indentation.check unit .error line ∨ f ∈ Rules.MethodNaming.check .error line := by
  rw [mem_checkLine_build]
  constructor
  · rintro ⟨rule, member, _, g, found, rfl⟩
    simp only [RuleSet.ofIndentUnit, List.mem_cons, List.not_mem_nil, or_false] at member
    rcases member with rfl | rfl | rfl
    · exact .inl found
    · have nothing := Rules.VariableNaming.check_eq_nil .error line
      change g ∈ Rules.VariableNaming.check .error line at found
      rw [nothing] at found
      exact absurd found List.not_mem_nil
    · exact .inr found
  · rintro (found | found)
    · exact ⟨Rules.indentation unit, by simp [RuleSet.ofIndentUnit], rfl, f, found, rfl⟩
    · exact ⟨Rules.methodNaming, by simp [RuleSet.ofIndentUnit], rfl, f, found, rfl⟩

theorem file_and_severity_of_mem_default
    (member : f ∈ (build (RuleSet.ofIndentUnit unit).rules .default).checkLine line) :
    f.location.file = line.file ∧ f.severity = .error := by
  rcases mem_checkLine_default.mp member with found | found
  · rw [(Rules.Indentation.mem_check_iff.mp found).2]
    exact ⟨rfl, rfl⟩
  · obtain ⟨_, _, _, _, rfl⟩ := Rules.MethodNaming.mem_check_iff.mp found
    exact ⟨rfl, rfl⟩

theorem exists_mem_default_iff {number column : Nat} {kind : RuleKind} {text : String} :
    (∃ f ∈ (build (RuleSet.ofIndentUnit unit).rules .default).checkLine line,
      f.location.line = number ∧ f.location.column = column ∧ f.kind = kind ∧ f.text = text) ↔
      line.number = number ∧ Violation unit.size line.text.toList kind column text.toList := by
  simp only [mem_checkLine_default, Rules.Indentation.mem_check_iff, Rules.Indentation.width_eq,
    Rules.MethodNaming.mem_check_iff]
  constructor
  · rintro ⟨f, ⟨uneven, rfl⟩ | ⟨front, name, site, missed, rfl⟩, rfl, rfl, rfl, rfl⟩
    · exact ⟨rfl, .indentation uneven⟩
    · refine ⟨rfl, ?_⟩
      rw [String.toList_ofList]
      exact .methodNaming site (site.identifier.isPascalCase_eq_false_iff.mp missed)
  · rintro ⟨rfl, violation⟩
    generalize chars : text.toList = name at violation
    cases violation with
    | indentation uneven =>
      refine ⟨_, .inl ⟨uneven, rfl⟩, rfl, rfl, rfl, ?_⟩
      exact (String.toList_inj.mp chars).symm
    | @methodNaming front _ site missed =>
      have missed := site.identifier.isPascalCase_eq_false_iff.mpr missed
      refine ⟨_, .inr ⟨front, name, site, missed, rfl⟩, rfl, rfl, rfl, ?_⟩
      rw [← chars, String.ofList_toList]

end Analyzer

/-- The report of the built-in rules on a file, for any size of the indent unit and with nothing
set, holds exactly the violations on the lines of the file, each as an error in this file. -/
theorem report_iff_violation {size : Nat} (positive : 0 < size) (file content : String) :
    ∃ set, RuleSet.ofUnit size = .ok set ∧
      let findings := ((Analyzer.build set.rules .default).analyzeSource file content).findings
      (∀ f ∈ findings, f.location.file = file ∧ f.severity = .error) ∧
        ∀ number column kind text,
          (∃ f ∈ findings, f.location.line = number ∧ f.location.column = column ∧
            f.kind = kind ∧ f.text = text) ↔
          ∃ line, ⟨file, number, line⟩ ∈ SourceLine.ofContent file content ∧
            Violation size line.toList kind column text.toList := by
  refine ⟨_, RuleSet.ofUnit_of_pos positive, ?_⟩
  intro findings
  have sameFile : ∀ line ∈ SourceLine.ofContent file content, line.file = file := by
    intro line cut
    exact (SourceLine.number_of_mem_numberFrom cut).1
  constructor
  · intro f member
    obtain ⟨line, cut, found⟩ := List.mem_flatMap.mp member
    rw [← sameFile line cut]
    exact Analyzer.file_and_severity_of_mem_default found
  · intro number column kind text
    constructor
    · rintro ⟨f, member, place⟩
      obtain ⟨line, cut, found⟩ := List.mem_flatMap.mp member
      obtain ⟨rfl, violation⟩ := Analyzer.exists_mem_default_iff.mp ⟨f, found, place⟩
      obtain ⟨lineFile, number, text⟩ := line
      obtain rfl := sameFile _ cut
      exact ⟨text, cut, violation⟩
    · rintro ⟨line, cut, violation⟩
      obtain ⟨f, found, place⟩ := (@Analyzer.exists_mem_default_iff ⟨size, positive⟩
        ⟨file, number, line⟩ number column kind text).mpr ⟨rfl, violation⟩
      exact ⟨f, List.mem_flatMap.mpr ⟨_, cut, found⟩, place⟩

/-- The column of a name counts the characters in front of it, one of which takes two bytes here. -/
theorem exists_violation_behind_accent : 0 < 4 ∧
    ∃ set, RuleSet.ofUnit 4 = .ok set ∧
      ∃ f ∈ ((Analyzer.build set.rules .default).analyzeSource "a" "Ok\n  é foo_bar(").findings,
        f.location.line = 2 ∧ f.location.column = 5 ∧ f.kind = .methodNaming ∧
          f.text = "foo_bar" := by
  obtain ⟨set, built, _, exactly⟩ := report_iff_violation (by decide : 0 < 4) "a" "Ok\n  é foo_bar("
  refine ⟨by decide, set, built, ?_⟩
  refine (exactly 2 5 .methodNaming "foo_bar").mpr ⟨"  é foo_bar(", by decide, ?_⟩
  have identifier : Rules.MethodNaming.IsIdentifier "foo_bar".toList :=
    ⟨'f', "oo_bar".toList, rfl, by decide, List.all_eq_true.mp (by decide)⟩
  have site : Rules.MethodNaming.CallSite "  é foo_bar(".toList "  é ".toList "foo_bar".toList :=
    ⟨identifier, ⟨"  é".toList, ' ', rfl, by decide⟩, [], rfl⟩
  exact .methodNaming site (.inr (by decide))

end LineLint
