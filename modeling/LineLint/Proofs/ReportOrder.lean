import LineLint.Proofs.BuiltIn
import Mathlib.Data.Prod.Lex

/-! # The order of a report

The findings of a report come line by line, on a line kind by kind, and within a kind from left to
right. They are strictly ordered, so that none is reported twice.
-/

namespace LineLint

/-- Where a finding stands in its report: its line, the rank of its kind, and its column. -/
def Finding.position (f : Finding) : Nat ×ₗ Nat ×ₗ Nat :=
  toLex (f.location.line, toLex (f.kind.rank, f.location.column))

theorem Finding.position_lt_iff {a b : Finding} : a.position < b.position ↔
    a.location.line < b.location.line ∨ a.location.line = b.location.line ∧
      (a.kind.rank < b.kind.rank ∨
        a.kind.rank = b.kind.rank ∧ a.location.column < b.location.column) := by
  simp only [position, Prod.Lex.toLex_lt_toLex]

namespace Analyzer

/-- If no two rules are about the same kind, the active rules are strictly ordered by kind. -/
theorem pairwise_rank_build {rules : List Rule} (distinct : (rules.map Rule.kind).Nodup)
    (settings : Settings) :
    (build rules settings).active.Pairwise fun a b => a.rule.kind.rank < b.rule.kind.rank := by
  rw [build_eq]
  apply List.pairwise_flatMap.mpr
  constructor
  · intro kind _
    rw [activeOf]
    split
    · rw [List.pairwise_map]
      have one : ((rules.filter fun rule => rule.kind = kind).map Rule.kind).Nodup :=
        distinct.sublist (List.filter_sublist.map _)
      apply (List.pairwise_map.mp one).imp_of_mem
      intro a b memberA memberB different
      have kindA := of_decide_eq_true (List.mem_filter.mp memberA).2
      have kindB := of_decide_eq_true (List.mem_filter.mp memberB).2
      exact absurd (kindA.trans kindB.symm) different
    · exact .nil
  · apply RuleKind.pairwise_rank_all.imp
    intro a b lower x memberX y memberY
    rw [(mem_activeOf memberX).2, (mem_activeOf memberY).2]
    exact lower

theorem mem_of_mem_build {rules : List Rule} {settings : Settings} {active : ActiveRule}
    (member : active ∈ (build rules settings).active) : active.rule ∈ rules := by
  rw [build_eq] at member
  obtain ⟨kind, _, member⟩ := List.mem_flatMap.mp member
  exact (mem_activeOf member).1

variable {analyzer : Analyzer}

/-- Findings on one line come by kind and then by column. -/
theorem pairwise_checkLine (tidy : ∀ active ∈ analyzer.active, active.rule.Tidy)
    (ordered : analyzer.active.Pairwise fun a b => a.rule.kind.rank < b.rule.kind.rank)
    (line : SourceLine) :
    (analyzer.checkLine line).Pairwise fun a b => a.position < b.position := by
  apply List.pairwise_flatMap.mpr
  constructor
  · intro active member
    have columns := ActiveRule.pairwise_check (tidy active member) line
    apply columns.imp_of_mem
    intro a b memberA memberB left
    have kinds := (ActiveRule.kind_of_mem_check (tidy active member) memberA).trans
      (ActiveRule.kind_of_mem_check (tidy active member) memberB).symm
    have lines := (ActiveRule.number_of_mem_check (tidy active member) memberA).trans
      (ActiveRule.number_of_mem_check (tidy active member) memberB).symm
    exact Finding.position_lt_iff.mpr (.inr ⟨lines, .inr ⟨congrArg _ kinds, left⟩⟩)
  · apply ordered.imp_of_mem
    intro first second memberFirst memberSecond lower a memberA b memberB
    have lines := (ActiveRule.number_of_mem_check (tidy first memberFirst) memberA).trans
      (ActiveRule.number_of_mem_check (tidy second memberSecond) memberB).symm
    have kindA := ActiveRule.kind_of_mem_check (tidy first memberFirst) memberA
    have kindB := ActiveRule.kind_of_mem_check (tidy second memberSecond) memberB
    rw [← kindA, ← kindB] at lower
    exact Finding.position_lt_iff.mpr (.inr ⟨lines, .inl lower⟩)

theorem number_of_mem_checkLine (tidy : ∀ active ∈ analyzer.active, active.rule.Tidy)
    {line : SourceLine} {f : Finding} (member : f ∈ analyzer.checkLine line) :
    f.location.line = line.number := by
  obtain ⟨active, kept, found⟩ := List.mem_flatMap.mp member
  exact ActiveRule.number_of_mem_check (tidy active kept) found

/-- Lines come in order, so positions increase over a whole file. -/
theorem pairwise_analyzeSource (tidy : ∀ active ∈ analyzer.active, active.rule.Tidy)
    (ordered : analyzer.active.Pairwise fun a b => a.rule.kind.rank < b.rule.kind.rank)
    (file content : String) :
    (analyzer.analyzeSource file content).findings.Pairwise fun a b => a.position < b.position := by
  apply List.pairwise_flatMap.mpr
  constructor
  · intro line _
    exact pairwise_checkLine tidy ordered line
  · apply (SourceLine.pairwise_numberFrom file 1 _).imp
    intro first second earlier a memberA b memberB
    rw [← number_of_mem_checkLine tidy memberA, ← number_of_mem_checkLine tidy memberB] at earlier
    exact Finding.position_lt_iff.mpr (.inl earlier)

theorem number_of_mem_analyzeSource (tidy : ∀ active ∈ analyzer.active, active.rule.Tidy)
    {file content : String} {f : Finding}
    (member : f ∈ (analyzer.analyzeSource file content).findings) :
    1 ≤ f.location.line ∧ f.location.line ≤ (Text.lines content.toList).length := by
  obtain ⟨line, cut, found⟩ := List.mem_flatMap.mp member
  obtain ⟨_, low, high⟩ := SourceLine.number_of_mem_numberFrom cut
  rw [List.length_map] at high
  rw [number_of_mem_checkLine tidy found]
  omega

end Analyzer

/-- The findings of a report on a file by any of the built-in rules, in whatever order the rules
were added and whatever the settings say, are strictly ordered by line, kind and column, and they
are on the lines that the file has. -/
theorem positions_strictly_increase {size : Nat} (positive : 0 < size) (kinds : List RuleKind)
    (settings : Settings) (file content : String) :
    ∃ set, RuleSet.ofUnit size = .ok set ∧
      ∀ rules : List Rule, rules.Perm (set.only kinds).rules →
        let findings := ((Analyzer.build rules settings).analyzeSource file content).findings
        (findings.map Finding.position).Pairwise (· < ·) ∧ findings.Nodup ∧
          ∀ f ∈ findings,
            1 ≤ f.location.line ∧ f.location.line ≤ (Text.lines content.toList).length := by
  refine ⟨_, RuleSet.ofUnit_of_pos positive, ?_⟩
  intro rules permuted findings
  let set := RuleSet.ofIndentUnit ⟨size, positive⟩
  have selected : ∀ rule ∈ rules, rule ∈ set.rules := by
    intro rule member
    exact (List.mem_filter.mp (permuted.mem_iff.mp member)).1
  have tidy : ∀ active ∈ (Analyzer.build rules settings).active, active.rule.Tidy := by
    intro active member
    exact RuleSet.tidy_of_mem (selected _ (Analyzer.mem_of_mem_build member))
  have distinct : (rules.map Rule.kind).Nodup := by
    have all : set.kinds.Nodup := by
      rw [RuleSet.kinds_ofIndentUnit]
      decide
    exact (permuted.map Rule.kind).nodup_iff.mpr (all.sublist (List.filter_sublist.map _))
  have ordered := Analyzer.pairwise_rank_build distinct settings
  have increasing := Analyzer.pairwise_analyzeSource tidy ordered file content
  refine ⟨List.pairwise_map.mpr increasing, ?_, ?_⟩
  · apply increasing.imp
    rintro a _ before rfl
    exact lt_irrefl _ before
  · intro f member
    exact Analyzer.number_of_mem_analyzeSource tidy member

/-- The same holds where rules are added last to first. -/
theorem positions_increase_if_reversed : 0 < 4 ∧ ∃ set, RuleSet.ofUnit 4 = .ok set ∧
    let added := (set.only [.methodNaming, .indentation]).rules.reverse
    let findings :=
      ((Analyzer.build added .default).analyzeSource "a" "  é Y_( z(\r\n w_(").findings
    added.Perm (set.only [.methodNaming, .indentation]).rules ∧
      (findings.map Finding.position).Pairwise (· < ·) ∧ findings.Nodup ∧
      ∀ f ∈ findings, 1 ≤ f.location.line ∧ f.location.line ≤ 2 := by
  obtain ⟨set, built, increase⟩ := positions_strictly_increase (by decide : 0 < 4)
    [.methodNaming, .indentation] .default "a" "  é Y_( z(\r\n w_("
  have reversed := List.reverse_perm (set.only [.methodNaming, .indentation]).rules
  exact ⟨by decide, set, built, reversed, increase _ reversed⟩

end LineLint
