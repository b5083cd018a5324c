import LineLint.Analyzer
import Mathlib.Data.List.Basic

/-! # The order of the rules

The rules of an analyzer come kind by kind, and the rules of one kind come in the order in which
they were added. So what is found on a line comes kind by kind as well.
-/

namespace LineLint

/-- A list that is in the order of kinds consists of its parts of each kind. -/
theorem RuleKind.flatMap_filter_eq {α : Type} (kindOf : α → RuleKind) {list : List α}
    (sorted : list.Pairwise fun a b => (kindOf a).rank ≤ (kindOf b).rank) :
    (all.flatMap fun kind => list.filter fun a => kindOf a = kind) = list := by
  induction list with
  | nil => simp
  | cons a rest ih =>
    obtain ⟨first, sorted⟩ := List.pairwise_cons.mp sorted
    obtain ⟨lower, higher, split⟩ := List.append_of_mem (mem_all (kindOf a))
    have ranks := pairwise_rank_all
    rw [split] at ranks
    obtain ⟨_, above, below⟩ := List.pairwise_append.mp ranks
    -- The head is in the part of its own kind alone, and nothing behind it is of a lower kind.
    have absent : ∀ kind ∈ lower, rest.filter (fun b => kindOf b = kind) = [] := by
      intro kind member
      apply List.filter_eq_nil_iff.mpr
      intro b later
      have before := below kind member _ List.mem_cons_self
      have behind := first b later
      rw [decide_eq_true_eq]
      rintro rfl
      omega
    have passOver : ∀ kind, kind.rank ≠ (kindOf a).rank →
        (a :: rest).filter (fun b => kindOf b = kind) = rest.filter fun b => kindOf b = kind := by
      intro kind other
      apply List.filter_cons_of_neg
      rw [decide_eq_true_eq]
      rintro rfl
      exact other rfl
    have inLower : ∀ kind ∈ lower, (a :: rest).filter (fun b => kindOf b = kind) =
        rest.filter fun b => kindOf b = kind := by
      intro kind member
      exact passOver kind (Nat.ne_of_lt (below kind member _ List.mem_cons_self))
    have inHigher : ∀ kind ∈ higher, (a :: rest).filter (fun b => kindOf b = kind) =
        rest.filter fun b => kindOf b = kind := by
      intro kind member
      exact passOver kind (Nat.ne_of_gt ((List.pairwise_cons.mp above).1 kind member))
    have ih := ih sorted
    rw [split, List.flatMap_append, List.flatMap_cons, List.flatMap_eq_nil_iff.mpr absent,
      List.nil_append] at ih
    rw [split, List.flatMap_append, List.flatMap_cons, List.flatMap_congr inLower,
      List.flatMap_congr inHigher, List.flatMap_eq_nil_iff.mpr absent, List.nil_append,
      List.filter_cons_of_pos (by simp), List.cons_append, ih]

namespace ActiveRule

/-- The order in which active rules are kept. -/
def comesFirst (a b : ActiveRule) : Bool := a.rule.kind.rank ≤ b.rule.kind.rank

theorem comesFirst_trans (a b c : ActiveRule) (first : comesFirst a b = true)
    (second : comesFirst b c = true) : comesFirst a c = true := by
  simp only [comesFirst, decide_eq_true_eq] at *
  omega

theorem comesFirst_total (a b : ActiveRule) : (comesFirst a b || comesFirst b a) = true := by
  simp only [comesFirst, Bool.or_eq_true, decide_eq_true_eq]
  omega

/-- Sorting by kind does not disturb the rules of one kind. -/
theorem filter_mergeSort (list : List ActiveRule) (kind : RuleKind) :
    (list.mergeSort comesFirst).filter (fun a => a.rule.kind = kind) =
      list.filter fun a => a.rule.kind = kind := by
  have same : (list.filter fun a => a.rule.kind = kind).Pairwise
      fun a b => comesFirst a b = true := by
    apply List.pairwise_of_forall_mem_list
    intro a memberA b memberB
    have kindA := of_decide_eq_true (List.mem_filter.mp memberA).2
    have kindB := of_decide_eq_true (List.mem_filter.mp memberB).2
    simp [comesFirst, kindA, kindB]
  have kept := (List.sublist_mergeSort comesFirst_trans comesFirst_total same
    List.filter_sublist).filter fun a => a.rule.kind = kind
  rw [List.filter_filter] at kept
  simp only [Bool.and_self] at kept
  have permuted := (List.mergeSort_perm list comesFirst).filter fun a => a.rule.kind = kind
  exact (kept.eq_of_length permuted.length_eq.symm).symm

/-- An active rule changes nothing but the severity of what the rule finds. -/
theorem check_eq (active : ActiveRule) (line : SourceLine) :
    active.check line = (active.rule.check line).map fun f =>
      { f with severity := active.severity.getD f.severity } := by
  rcases active with ⟨rule, severity | severity⟩
  · simp [check]
  · rfl

end ActiveRule

namespace Analyzer

def activeOf (rules : List Rule) (settings : Settings) (kind : RuleKind) : List ActiveRule :=
  if settings.isEnabled kind then
    (rules.filter fun rule => rule.kind = kind).map fun rule => ⟨rule, settings.severityFor? kind⟩
  else []

theorem mem_activeOf {rules : List Rule} {settings : Settings} {kind : RuleKind}
    {active : ActiveRule} (member : active ∈ activeOf rules settings kind) :
    active.rule ∈ rules ∧ active.rule.kind = kind := by
  rw [activeOf] at member
  split at member
  · obtain ⟨rule, chosen, rfl⟩ := List.mem_map.mp member
    obtain ⟨added, same⟩ := List.mem_filter.mp chosen
    exact ⟨added, of_decide_eq_true same⟩
  · simp at member

/-- Active rules stand kind by kind, each kind in the order of registration. -/
theorem build_eq (rules : List Rule) (settings : Settings) :
    (build rules settings).active = RuleKind.all.flatMap (activeOf rules settings) := by
  let enabled := (rules.filter fun rule => settings.isEnabled rule.kind).map
    fun rule => (⟨rule, settings.severityFor? rule.kind⟩ : ActiveRule)
  have sorted := List.pairwise_mergeSort ActiveRule.comesFirst_trans ActiveRule.comesFirst_total
    enabled
  simp only [ActiveRule.comesFirst, decide_eq_true_eq] at sorted
  have parts := RuleKind.flatMap_filter_eq (fun a : ActiveRule => a.rule.kind) sorted
  change enabled.mergeSort ActiveRule.comesFirst = _
  refine parts.symm.trans ?_
  congr 1
  funext kind
  refine (ActiveRule.filter_mergeSort enabled kind).trans ?_
  simp only [enabled, activeOf, List.filter_map, List.filter_filter, Function.comp_def]
  split
  · rename_i on
    have chosen : ∀ rule ∈ rules, (decide (rule.kind = kind) && settings.isEnabled rule.kind) =
        decide (rule.kind = kind) := by
      intro rule _
      by_cases same : rule.kind = kind <;> simp [same, on]
    rw [List.filter_congr chosen]
    apply List.map_congr_left
    intro rule member
    rw [of_decide_eq_true (List.mem_filter.mp member).2]
  · rename_i off
    apply List.map_eq_nil_iff.mpr
    apply List.filter_eq_nil_iff.mpr
    intro rule _
    by_cases same : rule.kind = kind <;> simp [same, off]

/-- What is found on a line comes kind by kind. -/
theorem checkLine_build (rules : List Rule) (settings : Settings) (line : SourceLine) :
    (build rules settings).checkLine line =
      RuleKind.all.flatMap fun kind =>
        (activeOf rules settings kind).flatMap fun active => active.check line := by
  rw [checkLine, build_eq, List.flatMap_assoc]

theorem mem_checkLine_build {rules : List Rule} {settings : Settings} {line : SourceLine}
    {f : Finding} : f ∈ (build rules settings).checkLine line ↔
      ∃ rule ∈ rules, settings.isEnabled rule.kind = true ∧ ∃ g ∈ rule.check line,
        { g with severity := (settings.severityFor? rule.kind).getD g.severity } = f := by
  simp only [checkLine, build, List.mem_flatMap, List.mem_mergeSort, List.mem_map, List.mem_filter]
  constructor
  · rintro ⟨_, ⟨rule, ⟨added, enabled⟩, rfl⟩, member⟩
    rw [ActiveRule.check_eq] at member
    exact ⟨rule, added, enabled, List.mem_map.mp member⟩
  · rintro ⟨rule, added, enabled, found⟩
    refine ⟨_, ⟨rule, ⟨added, enabled⟩, rfl⟩, ?_⟩
    rw [ActiveRule.check_eq]
    exact List.mem_map.mpr found

end Analyzer

end LineLint
