import LineLint.Proofs.Faults

/-! # Indent units

The settings may hold anything under the key of the indent unit, and only a positive integer is one.
Anything else is an error, whether or not the rule is enabled that would need the unit, and so every
rule set that is built divides by a positive number. The remainder is taken here by a division that
has no result for zero, to show that none is missing on any line.
-/

namespace LineLint

/-- The remainder of a division, which there is none of by zero. -/
def remainder? (n divisor : Nat) : Option Nat := if divisor = 0 then none else some (n % divisor)

namespace Rules.Indentation

/-- What is found on a line by a remainder by `size`, if there is one. -/
def check? (size : Nat) (severity : Severity) (line : SourceLine) : Option (List Finding) := do
  let width := width line.text.toList
  let rest ← remainder? width size
  if rest = 0 then some []
  else
    some [⟨.indentation, severity, ⟨line.file, line.number, 1⟩, line.text,
      "indentation of " ++ toString width ++ " character(s) is not a multiple of " ++
        toString size⟩]

/-- A unit in use is never zero, so the division is always defined. -/
theorem check?_size (unit : IndentUnit) (severity : Severity) (line : SourceLine) :
    check? unit.size severity line = some (check unit severity line) := by
  have positive : unit.size ≠ 0 := unit.size_pos.ne'
  simp only [check?, remainder?, if_neg positive, check]
  change (if _ then _ else _) = _
  split <;> rfl

end Rules.Indentation

def RuleSettings.withoutEnabled (rule : RuleSettings) : RuleSettings :=
  { rule with enabled := none }

/-- Settings with the same sections, but for which of them enable their rules. -/
def Settings.SameButEnabled (a b : Settings) : Prop :=
  ∀ key, (a.sectionAt? key).map RuleSettings.withoutEnabled =
    (b.sectionAt? key).map RuleSettings.withoutEnabled

theorem Settings.option?_eq_of_withoutEnabled (settings : Settings) (kind : RuleKind)
    (key : String) : settings.option? kind key =
      ((settings.section? kind).map RuleSettings.withoutEnabled).bind fun rule =>
        Toml.Value.find? rule.options key := by
  rw [option?]
  cases settings.section? kind <;> rfl

theorem Settings.SameButEnabled.option?_eq {a b : Settings} (same : a.SameButEnabled b)
    (kind : RuleKind) (key : String) : a.option? kind key = b.option? kind key := by
  have sections : (a.section? kind).map RuleSettings.withoutEnabled =
      (b.section? kind).map RuleSettings.withoutEnabled := by
    simp only [section?, Option.map_or, same kind.name, same kind.code]
  rw [option?_eq_of_withoutEnabled, sections, ← option?_eq_of_withoutEnabled]

namespace RuleSet

variable {settings : Settings} {set : RuleSet} {size : Nat}

/-- The indent unit that settings come to: four if none is set, and else a positive integer. -/
inductive UnitIs (settings : Settings) : Nat → Prop
  | unset (none : settings.option? .indentation "indent_unit" = none) : UnitIs settings 4
  | set {size : Nat}
      (given : settings.option? .indentation "indent_unit" = some (.integer size))
      (positive : 0 < size) : UnitIs settings size

/-- A rule set divides the width of an indentation by a number that it can be divided by. -/
def DividesBy (set : RuleSet) (size : Nat) : Prop :=
  ∀ rule ∈ set.rules, rule.kind = .indentation → ∀ line,
    Rules.Indentation.check? size rule.severity line = some (rule.check line)

/-- No settings give the unit zero. -/
theorem UnitIs.positive (is : UnitIs settings size) : 0 < size := by
  cases is with
  | unset => decide
  | set _ positive => exact positive

theorem UnitIs.ofSettings_eq (is : UnitIs settings size) : ofSettings settings = ofUnit size := by
  cases is with
  | unset none =>
    rw [ofSettings, unitOf, unitKey, none]
    rfl
  | set given _ => exact ofSettings_of_option given

/-- What is under the key is a unit, or it is wrong. -/
theorem unitIs_or_badUnit (settings : Settings) :
    (∃ size, UnitIs settings size) ∨ ∃ error, BadUnit settings error := by
  cases given : settings.option? .indentation unitKey with
  | none => exact .inl ⟨4, .unset given⟩
  | some value =>
    cases value with
    | integer size =>
      rcases lt_or_ge 0 size with positive | small
      · obtain ⟨n, rfl⟩ := Int.eq_ofNat_of_zero_le (Int.le_of_lt positive)
        exact .inl ⟨n, .set given (by omega)⟩
      · exact .inr ⟨_, .notPositive given small⟩
    | string | float | boolean | datetime | array | table =>
      exact .inr ⟨_, .notInteger given (by simp)⟩

theorem exists_unitIs_iff :
    (∃ set, ofSettings settings = .ok set) ↔ ∃ size, UnitIs settings size := by
  constructor
  · rintro ⟨set, built⟩
    refine (unitIs_or_badUnit settings).resolve_right ?_
    rintro ⟨error, bad⟩
    rw [ofSettings_eq_error_iff.mpr bad] at built
    cases built
  · rintro ⟨size, is⟩
    exact ⟨_, is.ofSettings_eq.trans (ofUnit_of_pos is.positive)⟩

/-- The built-in rules divide by their unit, on every line. -/
theorem dividesBy_ofIndentUnit (unit : Rules.IndentUnit) :
    (ofIndentUnit unit).DividesBy unit.size := by
  intro rule member about line
  simp only [ofIndentUnit, List.mem_cons, List.not_mem_nil, or_false] at member
  rcases member with rfl | rfl | rfl
  · exact Rules.Indentation.check?_size unit .error line
  · cases about
  · cases about

/-- The unit that a rule set is built from is the one its indentation rule divides by. -/
theorem dividesBy_of_ofUnit (built : ofUnit size = .ok set) :
    1 ≤ size ∧ .indentation ∈ set.kinds ∧ set.DividesBy size := by
  rw [ofUnit] at built
  split at built
  · rename_i unit sized
    cases built
    rw [← Rules.IndentUnit.size_of_ofNat? sized, kinds_ofIndentUnit]
    exact ⟨unit.size_pos, by decide, dividesBy_ofIndentUnit unit⟩
  · cases built

end RuleSet

theorem CheckOptions.dividesBy_of_ruleSet {options : CheckOptions} {settings : Settings}
    {set : RuleSet} (built : options.ruleSet settings = .ok set) :
    1 ≤ options.unitSize settings ∧ set.DividesBy (options.unitSize settings) := by
  obtain ⟨unit, sized, rfl⟩ := exists_unit_of_ruleSet built
  rw [← sized]
  refine ⟨unit.size_pos, fun rule member => ?_⟩
  exact RuleSet.dividesBy_ofIndentUnit unit rule (mem_select_iff.mp member).1

/-- What the settings hold under the key of the indent unit decides whether rules are built, and
which: anything but an integer is an error, and so is an integer that is not positive, which the
error names; otherwise the rules are those of the unit. Which rules are enabled has no part in it.
No rule set that is built divides by zero on any line, be its unit from the settings or the
options. -/
theorem settings_decide_indent_unit :
    (∀ settings : Settings,
      (∀ value, RuleSet.ofSettings settings = .error (.notInteger value) ↔
        settings.option? .indentation "indent_unit" = some value ∧ ∀ size, value ≠ .integer size) ∧
      (∀ size, RuleSet.ofSettings settings = .error (.notPositive size) ↔
        settings.option? .indentation "indent_unit" = some (.integer size) ∧ size ≤ 0) ∧
      ((∃ set, RuleSet.ofSettings settings = .ok set) ↔ ∃ size, RuleSet.UnitIs settings size) ∧
      ∀ size, RuleSet.UnitIs settings size →
        ∃ set, RuleSet.ofSettings settings = .ok set ∧ RuleSet.ofUnit size = .ok set) ∧
      (∀ a b : Settings, a.SameButEnabled b → RuleSet.ofSettings a = RuleSet.ofSettings b) ∧
      (∀ size set, RuleSet.ofUnit size = .ok set →
        1 ≤ size ∧ .indentation ∈ set.kinds ∧ set.DividesBy size) ∧
      ∀ (options : CheckOptions) (settings : Settings) (set : RuleSet),
        options.ruleSet settings = .ok set →
          1 ≤ options.unitSize settings ∧ set.DividesBy (options.unitSize settings) := by
  refine ⟨fun settings => ⟨?_, ?_, RuleSet.exists_unitIs_iff, ?_⟩, ?_, ?_, ?_⟩
  · intro value
    rw [RuleSet.ofSettings_eq_error_iff]
    exact ⟨fun | .notInteger set other => ⟨set, other⟩, fun ⟨set, other⟩ => .notInteger set other⟩
  · intro size
    rw [RuleSet.ofSettings_eq_error_iff]
    exact ⟨fun | .notPositive set small => ⟨set, small⟩, fun ⟨set, small⟩ => .notPositive set small⟩
  · intro size is
    exact ⟨_, is.ofSettings_eq.trans (RuleSet.ofUnit_of_pos is.positive),
      RuleSet.ofUnit_of_pos is.positive⟩
  · intro a b same
    simp only [RuleSet.ofSettings, RuleSet.unitOf, same.option?_eq]
  · intro size set built
    exact RuleSet.dividesBy_of_ofUnit built
  · intro options settings set built
    exact CheckOptions.dividesBy_of_ruleSet built

/-- The section under the code of the rule has no say beside the one under its name, which may
disable the rule. -/
theorem settings_decide_indent_unit_of_disabled_rule :
    let settings (enabled : Bool) (value : Toml.Value) : Settings := { rules :=
      [("SL001", { options := [("indent_unit", .string "x")] }),
        ("indentation", { enabled, options := [("indent_unit", value)] })] }
    let options : CheckOptions := { indentUnit := some 18446744073709551615 }
    RuleSet.ofSettings (settings false (.boolean true)) = .error (.notInteger (.boolean true)) ∧
      RuleSet.ofSettings (settings true (.integer 0)) = .error (.notPositive 0) ∧
      RuleSet.ofSettings (settings false (.integer (-9223372036854775808))) =
        .error (.notPositive (-9223372036854775808)) ∧
      (RuleSet.UnitIs (settings false (.integer 9223372036854775807)) 9223372036854775807 ∧
        ∃ set, RuleSet.ofSettings (settings false (.integer 9223372036854775807)) = .ok set ∧
          RuleSet.ofUnit 9223372036854775807 = .ok set) ∧
      (RuleSet.UnitIs .default 4 ∧ ∃ set, RuleSet.ofSettings .default = .ok set ∧
        RuleSet.ofUnit 4 = .ok set ∧ set.DividesBy 4) ∧
      ((settings false (.integer 2)).SameButEnabled (settings true (.integer 2)) ∧
        RuleSet.ofSettings (settings false (.integer 2)) =
          RuleSet.ofSettings (settings true (.integer 2))) ∧
      ∃ set, options.ruleSet (settings false (.integer 0)) = .ok set ∧
        set.DividesBy 18446744073709551615 := by
  intro settings options
  obtain ⟨decided, alike, divides, always⟩ := settings_decide_indent_unit
  have given (enabled : Bool) (value : Toml.Value) :
      (settings enabled value).option? .indentation "indent_unit" = some value := rfl
  have most : RuleSet.UnitIs (settings false (.integer 9223372036854775807)) 9223372036854775807 :=
    .set (given false _) (by decide)
  have four : RuleSet.UnitIs .default 4 := .unset rfl
  have same : (settings false (.integer 2)).SameButEnabled (settings true (.integer 2)) := by
    intro key
    by_cases coded : "SL001" = key
    · subst coded
      rfl
    by_cases named : "indentation" = key
    · subst named
      rfl
    simp [Settings.sectionAt?, settings, coded, named]
  obtain ⟨set, built, unit⟩ := (decided .default).2.2.2 4 four
  refine ⟨((decided _).1 _).mpr ⟨given _ _, by simp⟩,
    ((decided _).2.1 _).mpr ⟨given _ _, by decide⟩,
    ((decided _).2.1 _).mpr ⟨given _ _, by decide⟩, ⟨most, (decided _).2.2.2 _ most⟩,
    ⟨four, set, built, unit, (divides 4 set unit).2.2⟩, ⟨same, alike _ _ same⟩, ?_⟩
  have made : options.ruleSet (settings false (.integer 0)) =
      .ok (.ofIndentUnit ⟨18446744073709551615, by decide⟩) := rfl
  exact ⟨_, made, (always _ _ _ made).2⟩

end LineLint
