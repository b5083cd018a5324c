import LineLint.Proofs.Checking

/-! # Options that settings can replace

What the options of a check ask for can be written into its settings instead: more patterns to
exclude, other extensions, the indent unit, and the kinds of rules that are not selected. Each
option takes a way of its own through a check, and still no check tells the two apart.
-/

namespace LineLint

variable {α : Type}

/-- Entries with a value under a key, in the place of the one that was there. -/
def putUnder (key : String) (value : α) (entries : List (String × α)) : List (String × α) :=
  (key, value) :: entries.filter fun entry => entry.1 != key

theorem find?_putUnder (key other : String) (value : α) (entries : List (String × α)) :
    ((putUnder key value entries).find? fun entry => entry.1 == other).map Prod.snd =
      if other = key then some value
      else (entries.find? fun entry => entry.1 == other).map Prod.snd := by
  by_cases same : other = key
  · simp [putUnder, same]
  · have apart : (fun entry : String × α => (entry.1 != key) && (entry.1 == other)) =
        fun entry => entry.1 == other := by
      funext entry
      by_cases here : entry.1 = other <;> simp [here, same]
    rw [if_neg same, putUnder, List.find?_cons_of_neg (by simpa using Ne.symm same),
      List.find?_filter]
    simp only [Bool.decide_and, Bool.decide_eq_true, apart]

namespace Settings

variable (settings : Settings) {kind other : RuleKind} {change : RuleSettings → RuleSettings}

/-- The key of the section that governs a kind, or the name of the kind where there is none. -/
def governingKey (kind : RuleKind) : String :=
  if (settings.sectionAt? kind.name).isNone && (settings.sectionAt? kind.code).isSome then
    kind.code
  else kind.name

/-- The settings with another section under a key. -/
def put (key : String) (rule : RuleSettings) : Settings :=
  { settings with rules := putUnder key rule settings.rules }

/-- The settings with a change to the section that governs a kind, which is made where there is
none. -/
def amend (kind : RuleKind) (change : RuleSettings → RuleSettings) : Settings :=
  settings.put (settings.governingKey kind) (change ((settings.section? kind).getD {}))

theorem sectionAt?_put (key other : String) (rule : RuleSettings) :
    (settings.put key rule).sectionAt? other =
      if other = key then some rule else settings.sectionAt? other :=
  find?_putUnder key other rule settings.rules

/-- Options that amend a rule amend the section that governs it, or make one. -/
theorem section?_amend (kind : RuleKind) (change : RuleSettings → RuleSettings) :
    (settings.amend kind change).section? kind =
      some (change ((settings.section? kind).getD {})) := by
  have apart : kind.name ≠ kind.code := by cases kind <;> decide
  simp only [section?, amend, sectionAt?_put, governingKey]
  cases named : settings.sectionAt? kind.name <;> cases coded : settings.sectionAt? kind.code <;>
    simp [apart]

theorem section?_amend_of_ne (different : other ≠ kind) :
    (settings.amend kind change).section? other = settings.section? other := by
  have apart : ∀ word ∈ [other.name, other.code], word ≠ settings.governingKey kind := by
    have words : ∀ word ∈ [other.name, other.code], word ≠ kind.name ∧ word ≠ kind.code := by
      cases other <;> cases kind <;> first | contradiction | decide
    intro word listed
    rw [governingKey]
    split
    · exact (words word listed).2
    · exact (words word listed).1
  rw [section?, amend, sectionAt?_put, sectionAt?_put, if_neg (apart _ (by simp)),
    if_neg (apart _ (by simp)), section?]

/-- A change to a section that keeps what is read of it keeps it for every kind. -/
theorem bind_section?_amend {β : Type} {read : RuleSettings → Option β} (unset : read {} = none)
    (keeps : ∀ rule, read (change rule) = read rule) :
    ((settings.amend kind change).section? other).bind read =
      (settings.section? other).bind read := by
  by_cases same : other = kind
  · rw [same, section?_amend, Option.bind_some, keeps]
    cases settings.section? kind with
    | none => exact unset
    | some rule => rfl
  · rw [section?_amend_of_ne settings same]

def setOption (kind : RuleKind) (key : String) (value : Toml.Value) : Settings :=
  settings.amend kind fun rule => { rule with options := putUnder key value rule.options }

def disable (kind : RuleKind) : Settings :=
  settings.amend kind fun rule => { rule with enabled := some false }

variable (key : String) (value : Toml.Value)

theorem isEnabled_setOption :
    (settings.setOption kind key value).isEnabled other = settings.isEnabled other :=
  congrArg (Option.getD · true) (bind_section?_amend settings rfl fun _ => rfl)

theorem severityFor?_setOption :
    (settings.setOption kind key value).severityFor? other = settings.severityFor? other :=
  bind_section?_amend settings rfl fun _ => rfl

theorem option?_setOption (asked : String) :
    (settings.setOption kind key value).option? other asked =
      if other = kind ∧ asked = key then some value else settings.option? other asked := by
  by_cases same : other = kind
  · rw [same, option?, setOption, section?_amend, Option.bind_some, Toml.Value.find?,
      find?_putUnder]
    simp only [true_and]
    split
    · rfl
    · rw [option?]
      cases settings.section? kind <;> rfl
  · rw [if_neg (fun both => same both.1), option?, setOption, section?_amend_of_ne settings same,
      option?]

/-- Disabling a kind switches off that one alone. -/
theorem isEnabled_disable :
    (settings.disable kind).isEnabled other = (settings.isEnabled other && other != kind) := by
  by_cases same : other = kind
  · simp [same, isEnabled, disable, section?_amend]
  · simp [same, isEnabled, disable, section?_amend_of_ne settings same]

theorem severityFor?_disable :
    (settings.disable kind).severityFor? other = settings.severityFor? other :=
  bind_section?_amend settings rfl fun _ => rfl

theorem option?_disable :
    (settings.disable kind).option? other key = settings.option? other key :=
  bind_section?_amend settings rfl fun _ => rfl

/-- Disabling kinds one after the other disables these kinds and changes nothing else. -/
theorem foldl_disable (kinds : List RuleKind) (settings : Settings) :
    let disabled := kinds.foldl disable settings
    disabled.failOn = settings.failOn ∧ disabled.scan = settings.scan ∧
      (∀ kind, disabled.isEnabled kind = (settings.isEnabled kind && !kinds.contains kind)) ∧
      (∀ kind, disabled.severityFor? kind = settings.severityFor? kind) ∧
      ∀ kind key, disabled.option? kind key = settings.option? kind key := by
  induction kinds generalizing settings with
  | nil => simp
  | cons first rest ih =>
    obtain ⟨failOn, scan, enabled, severity, option⟩ := ih (settings.disable first)
    refine ⟨failOn, scan, ?_, ?_, ?_⟩
    · intro kind
      rw [List.foldl_cons, enabled, isEnabled_disable, List.contains_cons, Bool.not_or,
        Bool.and_assoc]
      rfl
    · intro kind
      rw [List.foldl_cons, severity, severityFor?_disable]
    · intro kind key
      rw [List.foldl_cons, option, option?_disable]

end Settings

namespace CheckOptions

variable {options : CheckOptions} {settings folded : Settings}

/-- The options without those that settings can replace. -/
def plain (options : CheckOptions) : CheckOptions :=
  { path := options.path, format := options.format }

/-- The scan section that leaves out more files and goes by other extensions, if the options name
any. The dots in front of an extension do not count. -/
def scanned (options : CheckOptions) (scan : ScanSettings) : ScanSettings :=
  { scan with
    exclude := scan.exclude ++ options.exclude
    extensions :=
      if options.extensions = [] then scan.extensions
      else options.extensions.map fun extension =>
        String.ofList (extension.toList.dropWhile (· == '.')) }

/-- Settings that say what the options ask for next to what other settings say. -/
structure FoldsInto (options : CheckOptions) (settings folded : Settings) : Prop where
  failOn : folded.failOn = settings.failOn
  scan : folded.scan = options.scanned settings.scan
  enabled : ∀ kind, folded.isEnabled kind = (settings.isEnabled kind && options.selects kind)
  severity : ∀ kind, folded.severityFor? kind = settings.severityFor? kind
  option : ∀ kind key, folded.option? kind key =
    if kind = .indentation ∧ key = RuleSet.unitKey then
      (options.indentUnit.map fun size => .integer size).or (settings.option? kind key)
    else settings.option? kind key

/-- The settings with the indent unit of the options, if that is given. -/
def withUnit (options : CheckOptions) (settings : Settings) : Settings :=
  match options.indentUnit with
  | some size => settings.setOption .indentation RuleSet.unitKey (.integer size)
  | none => settings

/-- The settings changed as the options ask. -/
def fold (options : CheckOptions) (settings : Settings) : Settings :=
  (RuleKind.all.filter fun kind => !options.selects kind).foldl Settings.disable
    (options.withUnit (options.apply settings))

theorem scan_apply (options : CheckOptions) (settings : Settings) :
    (options.apply settings).scan = options.scanned settings.scan := by
  rw [apply]
  simp only [List.isEmpty_iff]
  rfl

/-- The indent unit is the only thing that is changed by the indent unit of the options. -/
theorem withUnit_spec (options : CheckOptions) (settings : Settings) :
    let measured := options.withUnit settings
    measured.failOn = settings.failOn ∧ measured.scan = settings.scan ∧
      (∀ kind, measured.isEnabled kind = settings.isEnabled kind) ∧
      (∀ kind, measured.severityFor? kind = settings.severityFor? kind) ∧
      ∀ kind key, measured.option? kind key =
        if kind = .indentation ∧ key = RuleSet.unitKey then
          (options.indentUnit.map fun size => .integer size).or (settings.option? kind key)
        else settings.option? kind key := by
  rw [withUnit]
  cases options.indentUnit with
  | none => simp
  | some size =>
    refine ⟨rfl, rfl, fun kind => settings.isEnabled_setOption _ _,
      fun kind => settings.severityFor?_setOption _ _, fun kind key => ?_⟩
    rw [settings.option?_setOption]
    rfl

theorem foldsInto_fold (options : CheckOptions) (settings : Settings) :
    options.FoldsInto settings (options.fold settings) := by
  obtain ⟨failOn, scan, enabled, severity, option⟩ :=
    Settings.foldl_disable (RuleKind.all.filter fun kind => !options.selects kind)
      (options.withUnit (options.apply settings))
  obtain ⟨failOn', scan', enabled', severity', option'⟩ :=
    options.withUnit_spec (options.apply settings)
  refine ⟨failOn.trans failOn', scan.trans (scan'.trans (scan_apply options settings)), ?_, ?_, ?_⟩
  · intro kind
    have chosen : (!(RuleKind.all.filter fun kind => !options.selects kind).contains kind) =
        options.selects kind := by
      simp [List.contains_eq_mem, List.mem_filter, RuleKind.mem_all]
    rw [fold, enabled, enabled', chosen]
    rfl
  · intro kind
    exact (severity kind).trans (severity' kind)
  · intro kind key
    exact (option kind key).trans (option' kind key)

theorem scan_plain (options : CheckOptions) (settings : Settings) :
    (options.plain.apply settings).scan = settings.scan := by
  simp [apply, plain]

theorem exists_selects_plain : ∃ kind, options.plain.selects kind = true := ⟨.indentation, rfl⟩

theorem select_plain (set : RuleSet) : options.plain.select set = set :=
  select_of_no_filter rfl set

namespace FoldsInto

/-- The indent unit is the same, and so is what is wrong with it. -/
theorem builtIn_eq (folds : options.FoldsInto settings folded) :
    options.builtIn settings = options.plain.builtIn folded := by
  have unit := folds.option .indentation RuleSet.unitKey
  rw [if_pos ⟨rfl, rfl⟩] at unit
  change options.builtIn settings = RuleSet.ofSettings folded
  cases given : options.indentUnit with
  | none =>
    rw [given, Option.map_none, Option.none_or] at unit
    simp only [builtIn, given, RuleSet.ofSettings, RuleSet.unitOf, unit]
  | some size =>
    rw [given, Option.map_some, Option.some_or] at unit
    simp only [builtIn, given]
    exact (RuleSet.ofSettings_of_option unit).symm

/-- The selected rules that are enabled are those that are enabled in the end. -/
theorem build_select_eq (folds : options.FoldsInto settings folded) (set : RuleSet) :
    Analyzer.build (options.select set).rules settings = Analyzer.build set.rules folded := by
  have enabled : ∀ rule ∈ set.rules,
      (settings.isEnabled rule.kind && options.selects rule.kind) = folded.isEnabled rule.kind := by
    intro rule _
    rw [folds.enabled]
  simp only [Analyzer.build, select, List.filter_filter, folds.severity]
  rw [List.filter_congr enabled]

/-- The rules may be built in two ways, and the analyzer is the same in the end. -/
theorem ruleSet_eq (folds : options.FoldsInto settings folded)
    (selected : ∃ kind, options.selects kind = true) :
    options.ruleSet settings = (options.plain.ruleSet folded).map options.select := by
  rw [ruleSet_of_selects selected, ruleSet_of_selects exists_selects_plain, builtIn_eq folds]
  cases options.plain.builtIn folded with
  | error error => rfl
  | ok set => exact congrArg (fun set => Except.ok (options.select set)) (select_plain set).symm

/-- Folded options give the same summary, on every disk. -/
theorem summary?_eq (folds : options.FoldsInto settings folded)
    (selected : ∃ kind, options.selects kind = true) (disk : Disk) :
    disk.summary? options settings = disk.summary? options.plain folded := by
  have root : options.plain.root folded = options.root settings := by
    rw [root, root, folds.scan]
    rfl
  have scan : (options.plain.apply folded).scan = (options.apply settings).scan :=
    (scan_plain options folded).trans (folds.scan.trans (scan_apply options settings).symm)
  rw [Disk.summary?_eq, Disk.summary?_eq, root, scan, ruleSet_eq folds selected,
    map_bind_eq]
  simp only [build_select_eq folds]

/-- An indent unit among the options hides the one of the settings. -/
theorem of_setOption (folds : options.FoldsInto settings folded)
    (given : options.indentUnit ≠ none) (value : Toml.Value) :
    options.FoldsInto (settings.setOption .indentation RuleSet.unitKey value) folded := by
  refine ⟨folds.failOn, folds.scan, ?_, ?_, ?_⟩
  · intro kind
    rw [folds.enabled, Settings.isEnabled_setOption]
  · intro kind
    rw [folds.severity, Settings.severityFor?_setOption]
  · intro kind key
    rw [folds.option, Settings.option?_setOption]
    obtain ⟨size, given⟩ := Option.ne_none_iff_exists'.mp given
    split <;> simp [given]

end FoldsInto

end CheckOptions

/-- Two checks, each under settings of its own, that agree whatever a disk answers, wherever in a
workspace their settings are loaded from. -/
structure SameChecks (options : CheckOptions) (settings : Settings) (options' : CheckOptions)
    (settings' : Settings) : Prop where
  summary : ∀ disk : Disk, disk.summary? options settings = disk.summary? options' settings'
  outcome : ∀ (w : Workspace) (disk : Disk) (file file' : Option Path),
    (SettingsLocation.find w options.project file).load w = .ok settings →
      (SettingsLocation.find w options'.project file').load w = .ok settings' →
        w.checkBy disk options file = w.checkBy disk options' file'

theorem SameChecks.of_summary {options options' : CheckOptions} {settings settings' : Settings}
    (summary : ∀ disk : Disk, disk.summary? options settings = disk.summary? options' settings')
    (threshold : settings.threshold = settings'.threshold)
    (format : options.format = options'.format) :
    SameChecks options settings options' settings' := by
  refine ⟨summary, ?_⟩
  intro w disk file file' loaded loaded'
  simp only [Workspace.checkBy, Workspace.checkWith, loaded, loaded']
  change (disk.summary? options settings >>= _) = disk.summary? options' settings' >>= _
  rw [summary, threshold, format]

/-- What the options of a check ask for can be written into its settings, and then the check is the
same without these options. Where an indent unit is among them, nothing that the settings say of one
matters. -/
theorem options_fold_into_settings (options : CheckOptions)
    (selected : ∃ kind, options.selects kind = true) (settings : Settings) :
    options.FoldsInto settings (options.fold settings) ∧
      (∀ folded, options.FoldsInto settings folded →
        SameChecks options settings options.plain folded) ∧
      (options.indentUnit ≠ none → ∀ value : Toml.Value,
        SameChecks options (settings.setOption .indentation RuleSet.unitKey value)
          options settings) := by
  have folds := options.foldsInto_fold settings
  refine ⟨folds, ?_, ?_⟩
  · intro folded folds
    refine .of_summary (folds.summary?_eq selected) ?_ rfl
    rw [Settings.threshold, Settings.threshold, folds.failOn]
  · intro given value
    have replaced := folds.of_setOption given value
    refine .of_summary (fun disk => ?_) rfl rfl
    exact (replaced.summary?_eq selected disk).trans (folds.summary?_eq selected disk).symm

/-- The sections are under codes, one of them holds an indent unit that is no integer, and the kind
that is selected is disabled. -/
theorem options_fold_into_sections_by_code :
    let options : CheckOptions :=
      { rules := some "SL003", exclude := ["gen"], extensions := ["..kt"], indentUnit := some 2 }
    let settings : Settings :=
      ⟨none, {}, [("SL001", ⟨none, some .warning, [("indent_unit", .string "2")]⟩),
        ("SL003", ⟨some false, none, []⟩)]⟩
    let folded : Settings :=
      ⟨none, ⟨".", ["kt"], ["**/bin/**", "**/obj/**", "gen"], true, none⟩,
        [("SL001", ⟨some false, some .warning, [("indent_unit", .integer 2)]⟩),
          ("variable-naming", ⟨some false, none, []⟩), ("SL003", ⟨some false, none, []⟩)]⟩
    (∃ kind, options.selects kind = true) ∧ options.FoldsInto settings folded ∧
      options.indentUnit ≠ none ∧ SameChecks options settings options.plain folded ∧
      SameChecks options (settings.setOption .indentation RuleSet.unitKey (.integer 0))
        options settings := by
  intro options settings folded
  have selected : ∃ kind, options.selects kind = true := ⟨.methodNaming, by decide⟩
  have folds : options.FoldsInto settings folded := by
    refine ⟨rfl, by decide, ?_, ?_, ?_⟩
    · intro kind
      cases kind <;> decide
    · intro kind
      cases kind <;> decide
    · intro kind key
      cases kind with
      | variableNaming | methodNaming =>
        rw [if_neg (by simp)]
        rfl
      | indentation =>
        by_cases unit : key = RuleSet.unitKey
        · rw [unit]
          rfl
        · have other : ("indent_unit" == key) = false := beq_false_of_ne (Ne.symm unit)
          rw [if_neg (fun both => unit both.2)]
          change (List.find? _ [("indent_unit", _)]).map Prod.snd =
            (List.find? _ [("indent_unit", _)]).map Prod.snd
          simp [other]
  have given : options.indentUnit ≠ none := by simp [options]
  obtain ⟨_, same, overridden⟩ := options_fold_into_settings options selected settings
  exact ⟨selected, folds, given, same folded folds, overridden given (.integer 0)⟩

end LineLint
