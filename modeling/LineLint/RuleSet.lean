import LineLint.Rules.Indentation
import LineLint.Rules.MethodNaming
import LineLint.Rules.VariableNaming
import LineLint.Settings
import LineLint.Toml.Printer

/-! # Rule sets

A rule set holds built-in rules, in the order in which they run. The only thing that can go wrong
when one is built is the indent unit.
-/

namespace LineLint

structure RuleSet where
  rules : List Rule

namespace RuleSet

/-- Why no rule set can be built. -/
inductive UnitError where
  /-- The unit is not positive. -/
  | notPositive (unit : Int)
  /-- The unit is not an integer. -/
  | notInteger (value : Toml.Value)

def UnitError.message : UnitError → String
  | notPositive unit => "Invalid indent unit " ++ toString unit ++ ": must be a positive integer"
  | notInteger value => "Invalid indent unit " ++ value.text ++ ": must be an integer"

def ofIndentUnit (unit : Rules.IndentUnit) : RuleSet :=
  ⟨[Rules.indentation unit, Rules.variableNaming, Rules.methodNaming]⟩

/-- All built-in rules, with an indent unit of a size that must be positive. -/
def ofUnit (size : Nat) : Except UnitError RuleSet :=
  match Rules.IndentUnit.ofNat? size with
  | some unit => .ok (ofIndentUnit unit)
  | none => .error (.notPositive 0)

/-- The key of the indent unit among the options of the indentation rule. -/
def unitKey : String := "indent_unit"

def unitOf (settings : Settings) : Except UnitError Rules.IndentUnit :=
  match settings.option? .indentation unitKey with
  | none => .ok .default
  | some value =>
    match value.toInteger? with
    | none => .error (.notInteger value)
    | some size =>
      match Rules.IndentUnit.ofNat? size.toNat with
      | some unit => .ok unit
      | none => .error (.notPositive size)

/-- All built-in rules, with the indent unit of the settings. -/
def ofSettings (settings : Settings) : Except UnitError RuleSet :=
  (unitOf settings).map ofIndentUnit

/-- The rules whose kind is listed. -/
def only (set : RuleSet) (kinds : List RuleKind) : RuleSet :=
  ⟨set.rules.filter fun rule => kinds.contains rule.kind⟩

def kinds (set : RuleSet) : List RuleKind := set.rules.map Rule.kind

def size (set : RuleSet) : Nat := set.rules.length

def isEmpty (set : RuleSet) : Bool := set.rules.isEmpty

/-- The built-in rules as they are where nothing is set. -/
def default : RuleSet := ofIndentUnit .default

theorem ofUnit_of_pos {size : Nat} (positive : 0 < size) :
    ofUnit size = .ok (ofIndentUnit ⟨size, positive⟩) := by
  simp [ofUnit, Rules.IndentUnit.ofNat?, positive]

theorem kinds_ofIndentUnit (unit : Rules.IndentUnit) : (ofIndentUnit unit).kinds = RuleKind.all :=
  rfl

theorem kinds_only (set : RuleSet) (kinds : List RuleKind) :
    (set.only kinds).kinds = set.kinds.filter kinds.contains := by
  simp [RuleSet.kinds, only, List.filter_map, Function.comp_def]

theorem only_only (set : RuleSet) (a b : List RuleKind) :
    (set.only a).only b = set.only (a.filter b.contains) := by
  simp only [only, List.filter_filter, RuleSet.mk.injEq]
  refine List.filter_congr fun rule _ => ?_
  rw [Bool.eq_iff_iff]
  simp [List.mem_filter, And.comm]

end RuleSet

end LineLint
