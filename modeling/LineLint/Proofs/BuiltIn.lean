import LineLint.Proofs.CallSites
import LineLint.Proofs.RuleOrder
import LineLint.Proofs.Words
import LineLint.RuleSet

/-! # The built-in rules on a line

What each built-in rule finds on a line is described by the line alone. All of them are tidy: what
they find is about their own kind, it is on the line, and it comes from left to right.
-/

namespace LineLint

/-- A rule says where it found what, and reports it from left to right. -/
structure Rule.Tidy (rule : Rule) : Prop where
  kind_eq : ∀ line, ∀ f ∈ rule.check line, f.kind = rule.kind
  file_eq : ∀ line, ∀ f ∈ rule.check line, f.location.file = line.file
  number_eq : ∀ line, ∀ f ∈ rule.check line, f.location.line = line.number
  columns : ∀ line, (rule.check line).Pairwise fun a b => a.location.column < b.location.column

namespace ActiveRule

variable {active : ActiveRule} {line : SourceLine} {f : Finding}

/-- A severity leaves a finding where it is. -/
theorem exists_of_mem_check (member : f ∈ active.check line) :
    ∃ g ∈ active.rule.check line, f.kind = g.kind ∧ f.location = g.location ∧ f.text = g.text ∧
      f.severity = active.severity.getD g.severity := by
  rw [check_eq] at member
  obtain ⟨g, found, rfl⟩ := List.mem_map.mp member
  exact ⟨g, found, rfl, rfl, rfl, rfl⟩

theorem kind_of_mem_check (tidy : active.rule.Tidy) (member : f ∈ active.check line) :
    f.kind = active.rule.kind := by
  obtain ⟨g, found, kind, _⟩ := exists_of_mem_check member
  rw [kind, tidy.kind_eq line g found]

theorem file_of_mem_check (tidy : active.rule.Tidy) (member : f ∈ active.check line) :
    f.location.file = line.file := by
  obtain ⟨g, found, _, location, _⟩ := exists_of_mem_check member
  rw [location, tidy.file_eq line g found]

theorem number_of_mem_check (tidy : active.rule.Tidy) (member : f ∈ active.check line) :
    f.location.line = line.number := by
  obtain ⟨g, found, _, location, _⟩ := exists_of_mem_check member
  rw [location, tidy.number_eq line g found]

/-- Reconfiguring severities moves nothing, so columns still increase. -/
theorem pairwise_check (tidy : active.rule.Tidy) (line : SourceLine) :
    (active.check line).Pairwise fun a b => a.location.column < b.location.column := by
  rw [check_eq, List.pairwise_map]
  exact tidy.columns line

end ActiveRule

namespace Rules

open Text

namespace Indentation

/-- The width counts blanks only up to the first other character. -/
theorem width_eq (text : List Char) : width text = (text.takeWhile isBlank).length := by
  let reached : Cursor := ⟨(text.takeWhile isBlank).reverse ++ [], text.dropWhile isBlank⟩
  have leads : (Cursor.start text).Leads (text.takeWhile isBlank) reached :=
    ⟨List.takeWhile_append_dropWhile.symm, rfl⟩
  have fits : leading.matchAt? (.start text) = some ⟨.start text, reached, none⟩ := by
    simp [Pattern.matchAt?, leading, Pattern.textStart, Pattern.ends, Cursor.start,
      Cursor.head?_runs, reached]
  rw [width, Pattern.search?_of_matchAt? fits]
  simp [Match.whole, leads.stretch_eq]

theorem mem_check_iff {unit : IndentUnit} {severity : Severity} {line : SourceLine} {f : Finding} :
    f ∈ check unit severity line ↔
      ¬ unit.size ∣ width line.text.toList ∧
        f = ⟨.indentation, severity, ⟨line.file, line.number, 1⟩, line.text,
          message (width line.text.toList) unit⟩ := by
  simp only [check, Nat.dvd_iff_mod_eq_zero]
  split <;> simp_all

theorem tidy (unit : IndentUnit) (severity : Severity) : (indentation unit severity).Tidy where
  kind_eq line f member := by rw [(mem_check_iff.mp member).2]; rfl
  file_eq line f member := by rw [(mem_check_iff.mp member).2]
  number_eq line f member := by rw [(mem_check_iff.mp member).2]
  columns line := by
    change (check unit severity line).Pairwise _
    simp only [check]
    split
    · exact .nil
    · exact List.pairwise_singleton _ _

end Indentation

namespace VariableNaming

/-- The pattern that finds the words asks of them all that the rule could object to. -/
theorem isCamelCase_of_mem_candidates {text : List Char} {span : Span}
    (member : span ∈ candidates text) : isCamelCase span.chars = true := by
  rw [candidates_eq_filter_words] at member
  rw [isCamelCase_eq_isPlain]
  exact (List.mem_filter.mp member).2

theorem check_eq_nil (severity : Severity) (line : SourceLine) : check severity line = [] := by
  simp only [check, List.map_eq_nil_iff, List.filter_eq_nil_iff]
  intro span member
  simp [isCamelCase_of_mem_candidates member]

theorem tidy (severity : Severity) : (variableNaming severity).Tidy := by
  have nothing : ∀ line, (variableNaming severity).check line = [] := check_eq_nil severity
  constructor <;> simp [nothing]

end VariableNaming

namespace MethodNaming

theorem mem_check_iff {severity : Severity} {line : SourceLine} {f : Finding} :
    f ∈ check severity line ↔
      ∃ front name, CallSite line.text.toList front name ∧ isPascalCase name = false ∧
        f = ⟨.methodNaming, severity, ⟨line.file, line.number, front.length + 1⟩,
          String.ofList name, message (String.ofList name)⟩ := by
  simp only [check, List.mem_map, List.mem_filter, mem_candidates_iff, Bool.not_eq_true']
  constructor
  · rintro ⟨⟨start, name⟩, ⟨⟨front, site, rfl⟩, missed⟩, rfl⟩
    refine ⟨front, name, site, missed, ?_⟩
    rw [SourceLine.findingAt, SourceLine.columnAt, site.columnAt_eq]
    rfl
  · rintro ⟨front, name, site, missed, rfl⟩
    refine ⟨⟨byteLength front, name⟩, ⟨⟨front, site, rfl⟩, missed⟩, ?_⟩
    rw [SourceLine.findingAt, SourceLine.columnAt, site.columnAt_eq]
    rfl

theorem tidy (severity : Severity) : (methodNaming severity).Tidy where
  kind_eq line f member := by
    obtain ⟨_, _, _, _, rfl⟩ := mem_check_iff.mp member
    rfl
  file_eq line f member := by
    obtain ⟨_, _, _, _, rfl⟩ := mem_check_iff.mp member
    rfl
  number_eq line f member := by
    obtain ⟨_, _, _, _, rfl⟩ := mem_check_iff.mp member
    rfl
  columns line := by
    change (check severity line).Pairwise _
    rw [check, List.pairwise_map]
    apply List.Pairwise.imp_of_mem _ ((pairwise_candidates _).filter _)
    intro a b memberA memberB earlier
    obtain ⟨front, siteA, startA⟩ := mem_candidates_iff.mp (List.mem_filter.mp memberA |>.1)
    obtain ⟨other, siteB, startB⟩ := mem_candidates_iff.mp (List.mem_filter.mp memberB |>.1)
    change line.columnAt a.start < line.columnAt b.start
    rw [startA, startB] at earlier ⊢
    exact columnAt_lt_columnAt siteA.front_prefix siteB.front_prefix earlier

end MethodNaming

end Rules

/-- A built-in rule, with whatever it can be built with. -/
inductive Rule.BuiltIn : Rule → Prop
  | indentation (unit : Rules.IndentUnit) (severity : Severity) :
      BuiltIn (Rules.indentation unit severity)
  | variableNaming (severity : Severity) : BuiltIn (Rules.variableNaming severity)
  | methodNaming (severity : Severity) : BuiltIn (Rules.methodNaming severity)

/-- All three built-in rules are tidy, whatever the unit and the severities. -/
theorem Rule.BuiltIn.tidy {rule : Rule} (builtIn : rule.BuiltIn) : rule.Tidy := by
  cases builtIn with
  | indentation unit severity => exact Rules.Indentation.tidy unit severity
  | variableNaming severity => exact Rules.VariableNaming.tidy severity
  | methodNaming severity => exact Rules.MethodNaming.tidy severity

theorem RuleSet.builtIn_of_mem {unit : Rules.IndentUnit} {rule : Rule}
    (member : rule ∈ (ofIndentUnit unit).rules) : rule.BuiltIn := by
  simp only [ofIndentUnit, List.mem_cons, List.not_mem_nil, or_false] at member
  rcases member with rfl | rfl | rfl
  · exact .indentation unit .error
  · exact .variableNaming .error
  · exact .methodNaming .error

/-- Every built-in rule is tidy. -/
theorem RuleSet.tidy_of_mem {unit : Rules.IndentUnit} {rule : Rule}
    (member : rule ∈ (ofIndentUnit unit).rules) : rule.Tidy :=
  (builtIn_of_mem member).tidy

end LineLint
