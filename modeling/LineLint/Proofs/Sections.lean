import LineLint.Proofs.Overrides

/-! # The section that governs a kind

Settings may hold a section under the name of a kind of rules and another one under its code. Only
one of them counts, the one under the name if it is there, and it counts as a whole: whether the
rules run, how severe their findings are and how wide the indent unit is are all read from it.
-/

namespace LineLint

/-- Checks under two settings agree if the settings scan alike, make the same rules and have the same
threshold, and a run of rules that are made of them is the same under both. -/
theorem SameChecks.of_alike_runs {options : CheckOptions} {a b : Settings}
    (threshold : a.threshold = b.threshold) (scan : a.scan = b.scan)
    (ruleSet : RuleSet.ofSettings a = RuleSet.ofSettings b)
    (run : ∀ set, options.ruleSet a = .ok set → ∀ sources,
      (Analyzer.build set.rules a).run sources = (Analyzer.build set.rules b).run sources) :
    SameChecks options a options b := by
  refine .of_summary (fun disk => ?_) threshold rfl
  have root : options.root a = options.root b := by
    rw [CheckOptions.root, CheckOptions.root, scan]
  have scanned : (options.apply a).scan = (options.apply b).scan := by
    rw [CheckOptions.scan_apply, CheckOptions.scan_apply, scan]
  have made : options.ruleSet a = options.ruleSet b := by
    simp only [CheckOptions.ruleSet, ruleSet]
  rw [Disk.summary?_eq, Disk.summary?_eq, root, scanned, ← made]
  split
  · refine bind_congr_of_ok fun set built => ?_
    simp only [run set built]
  · rfl

theorem SameChecks.of_runs {options : CheckOptions} {a b : Settings} (failOn : a.failOn = b.failOn)
    (scan : a.scan = b.scan) (ruleSet : RuleSet.ofSettings a = RuleSet.ofSettings b)
    (run : ∀ set, options.ruleSet a = .ok set → ∀ sources,
      (Analyzer.build set.rules a).run sources = (Analyzer.build set.rules b).run sources) :
    SameChecks options a options b :=
  .of_alike_runs (by rw [Settings.threshold, Settings.threshold, failOn]) scan ruleSet run

namespace Settings

variable {a b : Settings} {kind : RuleKind}

/-- What is set for a kind of rules: what the section under its name says, or else the one under its
code, and nothing where there is neither. -/
def governing (settings : Settings) (kind : RuleKind) : RuleSettings :=
  match settings.sectionAt? kind.name, settings.sectionAt? kind.code with
  | some rule, _ => rule
  | none, some rule => rule
  | none, none => {}

theorem governing_eq_of_name {rule : RuleSettings} (named : a.sectionAt? kind.name = some rule) :
    a.governing kind = rule := by
  rw [governing, named]

theorem governing_eq_of_no_name (unnamed : a.sectionAt? kind.name = none) :
    a.governing kind = (a.sectionAt? kind.code).getD {} := by
  rw [governing, unnamed]
  cases a.sectionAt? kind.code <;> rfl

/-- A missing section governs as an empty one does. -/
theorem getD_section? (settings : Settings) (kind : RuleKind) :
    (settings.section? kind).getD {} = settings.governing kind := by
  rw [section?, governing]
  cases settings.sectionAt? kind.name <;> cases settings.sectionAt? kind.code <;> rfl

/-- Whatever a run reads of a section, it reads of the one that governs. -/
theorem bind_section?_eq {β : Type} {read : RuleSettings → Option β} (unset : read {} = none)
    (settings : Settings) (kind : RuleKind) :
    (settings.section? kind).bind read = read (settings.governing kind) := by
  rw [← getD_section?]
  cases settings.section? kind with
  | none => exact unset.symm
  | some rule => rfl

theorem isEnabled_eq (settings : Settings) (kind : RuleKind) :
    settings.isEnabled kind = (settings.governing kind).enabled.getD true := by
  rw [isEnabled, bind_section?_eq rfl]

theorem severityFor?_eq (settings : Settings) (kind : RuleKind) :
    settings.severityFor? kind = (settings.governing kind).severity :=
  bind_section?_eq rfl settings kind

theorem option?_eq (settings : Settings) (kind : RuleKind) (key : String) :
    settings.option? kind key = Toml.Value.find? (settings.governing kind).options key :=
  bind_section?_eq rfl settings kind

/-- Settings with the same threshold and the same scan, whose governing sections say the same of
what a run reads. -/
structure GovernAlike (a b : Settings) : Prop where
  failOn : a.failOn = b.failOn
  scan : a.scan = b.scan
  enabled : ∀ kind, (a.governing kind).enabled = (b.governing kind).enabled
  severity : ∀ kind, (a.governing kind).severity = (b.governing kind).severity
  unit : Toml.Value.find? (a.governing .indentation).options RuleSet.unitKey =
    Toml.Value.find? (b.governing .indentation).options RuleSet.unitKey

/-- Settings that make the same rules, or fail to make any for the same reason, and under which any
rules report the same and fail at the same threshold. So no check tells them apart. -/
structure RunAlike (a b : Settings) : Prop where
  ruleSet : RuleSet.ofSettings a = RuleSet.ofSettings b
  run : ∀ rules sources,
    (Analyzer.build rules a).run sources = (Analyzer.build rules b).run sources
  threshold : a.threshold = b.threshold
  checks : ∀ options, SameChecks options a options b

/-- A key under which a section governs nothing: it is the name of no kind, and where it is the code
of one there is a section under the name of that kind. -/
def Ignores (settings : Settings) (key : String) : Prop :=
  ∀ kind : RuleKind, key ≠ kind.name ∧
    (key = kind.code → (settings.sectionAt? kind.name).isSome = true)

/-- The section that governs a kind is under a key that is not ignored. -/
theorem governing_eq_of_not_ignored
    (same : ∀ key, ¬ a.Ignores key → a.sectionAt? key = b.sectionAt? key) (kind : RuleKind) :
    a.governing kind = b.governing kind := by
  have names := same kind.name fun ignored => (ignored kind).1 rfl
  cases named : a.sectionAt? kind.name with
  | some rule => rw [governing_eq_of_name named, governing_eq_of_name (names.symm.trans named)]
  | none =>
    have codes : a.sectionAt? kind.code = b.sectionAt? kind.code := by
      apply same
      intro ignored
      have present := (ignored kind).2 rfl
      rw [named] at present
      cases present
    rw [governing_eq_of_no_name named, governing_eq_of_no_name (names.symm.trans named), codes]

theorem governing_setOption (settings : Settings) (kind other : RuleKind) (key : String)
    (value : Toml.Value) :
    (settings.setOption kind key value).governing other =
      if other = kind then
        { settings.governing kind with
          options := putUnder key value (settings.governing kind).options }
      else settings.governing other := by
  rw [← getD_section?]
  split
  · rename_i same
    rw [same, setOption, section?_amend, getD_section?]
    rfl
  · rename_i different
    rw [setOption, section?_amend_of_ne settings different, getD_section?]

namespace GovernAlike

theorem of_governing (failOn : a.failOn = b.failOn) (scan : a.scan = b.scan)
    (governing : ∀ kind, a.governing kind = b.governing kind) : a.GovernAlike b := by
  refine ⟨failOn, scan, ?_, ?_, ?_⟩
  · intro kind
    rw [governing]
  · intro kind
    rw [governing]
  · rw [governing]

/-- The indent unit is the only option that any rule reads. -/
theorem of_setOption (settings : Settings) {kind : RuleKind} {key : String}
    (unread : ¬ (kind = .indentation ∧ key = RuleSet.unitKey)) (value : Toml.Value) :
    settings.GovernAlike (settings.setOption kind key value) := by
  refine ⟨rfl, rfl, ?_, ?_, ?_⟩
  · intro other
    rw [governing_setOption]
    split <;> simp [*]
  · intro other
    rw [governing_setOption]
    split <;> simp [*]
  · rw [← option?_eq, ← option?_eq, option?_setOption, if_neg]
    rintro ⟨rfl, rfl⟩
    exact unread ⟨rfl, rfl⟩

variable (alike : a.GovernAlike b)
include alike

theorem ofSettings_eq : RuleSet.ofSettings a = RuleSet.ofSettings b := by
  simp only [RuleSet.ofSettings, RuleSet.unitOf, option?_eq, alike.unit]

theorem build_eq (rules : List Rule) : Analyzer.build rules a = Analyzer.build rules b := by
  simp only [Analyzer.build, isEnabled_eq, severityFor?_eq, alike.enabled, alike.severity]

theorem runAlike : a.RunAlike b where
  ruleSet := alike.ofSettings_eq
  run rules sources := by rw [alike.build_eq]
  threshold := by rw [threshold, threshold, alike.failOn]
  checks options := by
    refine .of_runs alike.failOn alike.scan alike.ofSettings_eq ?_
    intro set _ sources
    rw [alike.build_eq]

end GovernAlike

end Settings

/-- One section governs each kind of rules. Settings run alike if the sections that govern in them
say the same, however they are spread over names and codes. So sections under keys that are ignored
make no difference, be it that they are under other words or under the code of a kind that has a
section under its name, and neither do options other than the indent unit. -/
theorem governed_by_one_section :
    (∀ a b : Settings, a.GovernAlike b → a.RunAlike b) ∧
      (∀ a b : Settings, a.failOn = b.failOn → a.scan = b.scan →
        (∀ key, ¬ a.Ignores key → a.sectionAt? key = b.sectionAt? key) → a.RunAlike b) ∧
      ∀ (settings : Settings) (kind : RuleKind) (key : String) (value : Toml.Value),
        ¬ (kind = .indentation ∧ key = RuleSet.unitKey) →
          settings.RunAlike (settings.setOption kind key value) := by
  refine ⟨?_, ?_, ?_⟩
  · intro a b alike
    exact alike.runAlike
  · intro a b failOn scan same
    have governing := Settings.governing_eq_of_not_ignored same
    exact (Settings.GovernAlike.of_governing failOn scan governing).runAlike
  · intro settings kind key value unread
    exact (Settings.GovernAlike.of_setOption settings unread value).runAlike

/-- The section under the name says little, and yet nothing is taken from the one under the code,
which would disable the rule and has an indent unit that is no integer. -/
theorem governed_by_section_under_name :
    let both : Settings :=
      ⟨none, {}, [("SL001", ⟨some false, some .info, [("indent_unit", .string "2")]⟩),
        ("indentation", ⟨none, some .warning, []⟩)]⟩
    let byName : Settings := ⟨none, {}, [("indentation", ⟨none, some .warning, []⟩)]⟩
    let byCode : Settings :=
      ⟨none, {}, [("lint", ⟨some false, none, []⟩),
        ("SL001", ⟨none, some .warning, [("note", .boolean true)]⟩)]⟩
    both.Ignores "SL001" ∧
      (∀ key, ¬ both.Ignores key → both.sectionAt? key = byName.sectionAt? key) ∧
      both.RunAlike byName ∧ both.GovernAlike byCode ∧ both.RunAlike byCode ∧
      both.RunAlike (both.setOption .methodNaming RuleSet.unitKey (.integer 0)) ∧
      RuleSet.ofSettings both = .ok .default := by
  intro both byName byCode
  obtain ⟨alike, ignored, options⟩ := governed_by_one_section
  have code : both.Ignores "SL001" := by
    intro kind
    cases kind <;> decide
  have same : ∀ key, ¬ both.Ignores key → both.sectionAt? key = byName.sectionAt? key := by
    intro key read
    have other : "SL001" ≠ key := by
      rintro rfl
      exact read code
    simp [both, byName, Settings.sectionAt?, other]
  have governs : both.GovernAlike byCode := by
    refine ⟨rfl, rfl, ?_, ?_, rfl⟩ <;> intro kind <;> cases kind <;> rfl
  exact ⟨code, same, ignored both byName rfl rfl same, governs, alike both byCode governs,
    options both .methodNaming RuleSet.unitKey (.integer 0) (by simp), rfl⟩

end LineLint
