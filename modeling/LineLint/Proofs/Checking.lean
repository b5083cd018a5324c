import LineLint.Check
import Mathlib.Data.List.DropRight

/-! # The steps of a check

A check that gets as far as printing has loaded its settings, built its rules and discovered its
files, and it prints the summary of these rules run over these files. The rules are the built-in
ones of the kinds that are selected, with an indent unit from the options or from the settings.
-/

namespace LineLint

variable {α β ε η : Type}

theorem bind_eq_ok_iff {first : Except ε α} {next : α → Except ε β} {b : β} :
    first >>= next = .ok b ↔ ∃ a, first = .ok a ∧ next a = .ok b := by
  cases first <;> simp [bind, Except.bind]

/-- What comes after a first step only matters where the first step succeeds. -/
theorem bind_congr_of_ok {first : Except ε α} {next next' : α → Except ε β}
    (same : ∀ a, first = .ok a → next a = next' a) : first >>= next = first >>= next' := by
  cases first with
  | error error => rfl
  | ok a => exact same a rfl

theorem mapError_eq_ok_iff {result : Except ε α} {f : ε → η} {a : α} :
    result.mapError f = .ok a ↔ result = .ok a := by
  cases result <;> simp [Except.mapError]

theorem map_eq_ok_iff {result : Except ε α} {f : α → β} {b : β} :
    result.map f = .ok b ↔ ∃ a, result = .ok a ∧ f a = b := by
  cases result <;> simp [Except.map]

theorem map_bind_eq {γ : Type} {result : Except ε α} {f : α → β} {next : β → Except ε γ} :
    result.map f >>= next = result >>= fun a => next (f a) := by
  cases result <;> rfl

namespace Text

/-- A trimmed text begins with no blank. -/
theorem dropWhile_trim (text : List Char) : (trim text).dropWhile isBlank = trim text := by
  have front : trim text <+: text.dropWhile isBlank := List.rdropWhile_prefix isBlank _
  apply List.dropWhile_eq_self_iff.mpr
  intro nonempty
  rw [front.getElem nonempty]
  exact List.dropWhile_eq_self_iff.mp (List.dropWhile_idempotent isBlank text) _

theorem trim_trim (text : List Char) : trim (trim text) = trim text := by
  change List.rdropWhile isBlank ((trim text).dropWhile isBlank) = trim text
  rw [dropWhile_trim]
  exact List.rdropWhile_idempotent isBlank _

end Text

namespace RuleKind

variable {a b kind : RuleKind} {text : List Char}

theorem isNamedBy_trim : kind.isNamedBy (Text.trim text) = kind.isNamedBy text := by
  simp only [isNamedBy, Text.trim_trim]

theorem isNamedBy_nil (kind : RuleKind) : kind.isNamedBy [] = false := by
  cases kind <;> decide

/-- The names and codes of two kinds differ by more than case. -/
theorem words_differ : ∀ a ∈ all, ∀ b ∈ all, ∀ x ∈ [a.name, a.code], ∀ y ∈ [b.name, b.code],
    x.toList.map Char.toLower = y.toList.map Char.toLower → a = b := by
  decide

/-- A kind is named by its name or its code, up to case and surrounding blanks. -/
theorem isNamedBy_iff : kind.isNamedBy text = true ↔
    ∃ word ∈ [kind.name, kind.code],
      word.toList.map Char.toLower = (Text.trim text).map Char.toLower := by
  simp [isNamedBy, Text.equalUpToCase_iff]

/-- A text names one kind at most. -/
theorem eq_of_isNamedBy (first : a.isNamedBy text = true) (second : b.isNamedBy text = true) :
    a = b := by
  obtain ⟨x, ofA, first⟩ := isNamedBy_iff.mp first
  obtain ⟨y, ofB, second⟩ := isNamedBy_iff.mp second
  exact words_differ a (mem_all a) b (mem_all b) x ofA y ofB (first.trans second.symm)

theorem isNamedBy_of_lookup? (found : lookup? text = some kind) : kind.isNamedBy text = true := by
  have named := List.find?_some found
  exact named

/-- No text names two kinds, so finding the first is finding the only one. -/
theorem lookup?_eq_some_iff : lookup? text = some kind ↔ kind.isNamedBy text = true := by
  refine ⟨isNamedBy_of_lookup?, fun named => ?_⟩
  cases found : lookup? text with
  | none => exact absurd named (List.find?_eq_none.mp found kind (mem_all kind))
  | some other => rw [eq_of_isNamedBy (isNamedBy_of_lookup? found) named]

end RuleKind

namespace RuleSet

/-- An indent unit in the settings counts as one that is given outright. -/
theorem ofSettings_of_option {settings : Settings} {size : Nat}
    (set : settings.option? .indentation unitKey = some (.integer size)) :
    ofSettings settings = ofUnit size := by
  simp only [ofSettings, unitOf, set, Toml.Value.toInteger?, Int.toNat_natCast, ofUnit]
  cases sized : Rules.IndentUnit.ofNat? size with
  | some unit => rfl
  | none =>
    rw [Rules.IndentUnit.ofNat?_eq_none_iff.mp sized]
    rfl

/-- The size of the indent unit of the settings, which is four where none is set. -/
def unitSizeOf (settings : Settings) : Nat :=
  match settings.option? .indentation unitKey with
  | some (.integer size) => size.toNat
  | _ => 4

theorem size_of_unitOf {settings : Settings} {unit : Rules.IndentUnit}
    (settled : unitOf settings = .ok unit) : unit.size = unitSizeOf settings := by
  rw [unitOf] at settled
  rw [unitSizeOf]
  split at settled
  · rename_i unset
    cases settled
    rw [unset]
    rfl
  · rename_i value set
    split at settled
    · cases settled
    · rename_i size integer
      rw [set, Toml.Value.toInteger?_eq_some_iff.mp integer]
      split at settled
      · rename_i sized
        cases settled
        exact Rules.IndentUnit.size_of_ofNat? sized
      · cases settled

end RuleSet

namespace CheckOptions

variable {options : CheckOptions} {settings : Settings} {set : RuleSet}

/-- Whether the rules of a kind are selected: all are without a filter, and with one a piece of it
between commas must name the kind. -/
def selects (options : CheckOptions) (kind : RuleKind) : Bool :=
  options.rules.all fun filter => (Text.split ',' filter.toList).any kind.isNamedBy

theorem mem_kindsOf_iff {filter : String} {kind : RuleKind} :
    kind ∈ kindsOf filter ↔ (Text.split ',' filter.toList).any kind.isNamedBy = true := by
  simp only [kindsOf, List.mem_eraseDups, List.mem_filterMap, List.mem_map, List.any_eq_true]
  constructor
  · rintro ⟨_, ⟨piece, member, rfl⟩, found⟩
    split at found
    · cases found
    · exact ⟨piece, member, RuleKind.isNamedBy_trim ▸ RuleKind.lookup?_eq_some_iff.mp found⟩
  · rintro ⟨piece, member, named⟩
    rw [← RuleKind.isNamedBy_trim] at named
    refine ⟨_, ⟨piece, member, rfl⟩, ?_⟩
    split
    · rename_i empty
      rw [List.isEmpty_iff.mp empty, RuleKind.isNamedBy_nil] at named
      cases named
    · exact RuleKind.lookup?_eq_some_iff.mpr named

def select (options : CheckOptions) (set : RuleSet) : RuleSet :=
  ⟨set.rules.filter fun rule => options.selects rule.kind⟩

theorem mem_select_iff {rule : Rule} :
    rule ∈ (options.select set).rules ↔ rule ∈ set.rules ∧ options.selects rule.kind = true :=
  List.mem_filter

/-- All built-in rules, with the indent unit of the options or else of the settings. -/
def builtIn (options : CheckOptions) (settings : Settings) : Except RuleSet.UnitError RuleSet :=
  match options.indentUnit with
  | some size => RuleSet.ofUnit size
  | none => RuleSet.ofSettings settings

/-- The filter is read only after the unit: a bad unit is reported even with an empty filter. -/
theorem ruleSet_of_builtIn {error : RuleSet.UnitError}
    (failed : options.builtIn settings = .error error) :
    options.ruleSet settings = .error (.unit error) := by
  change ((options.builtIn settings).mapError CheckError.unit >>= _) = _
  rw [failed]
  rfl

/-- With a sound indent unit, a filter gives the rules of the kinds that it names, if it names any. -/
theorem ruleSet_of_kinds {filter : String} {all : RuleSet}
    (built : options.builtIn settings = .ok all) (given : options.rules = some filter) :
    options.ruleSet settings =
      if kindsOf filter = [] then .error (.noKnownRule filter)
      else .ok (all.only (kindsOf filter)) := by
  change ((options.builtIn settings).mapError CheckError.unit >>= _) = _
  rw [built]
  simp only [Except.mapError, bind, Except.bind, given]
  split
  · rename_i none
    rw [if_pos none]
  · rename_i some
    rw [if_neg some]

theorem selects_eq_contains {filter : String} (given : options.rules = some filter)
    (kind : RuleKind) : options.selects kind = (kindsOf filter).contains kind := by
  rw [Bool.eq_iff_iff, List.contains_iff_mem, mem_kindsOf_iff, selects, given, Option.all_some]

theorem select_of_no_filter (none : options.rules = none) (set : RuleSet) :
    options.select set = set := by
  simp [select, selects, none]

/-- Where some kind is selected, nothing but the indent unit can be wrong. -/
theorem ruleSet_of_selects (selected : ∃ kind, options.selects kind = true)
    (settings : Settings) :
    options.ruleSet settings = ((options.builtIn settings).mapError .unit).map options.select := by
  change ((options.builtIn settings).mapError CheckError.unit >>= _) = _
  cases (options.builtIn settings).mapError CheckError.unit with
  | error error => rfl
  | ok set =>
    simp only [bind, Except.bind, Except.map]
    split
    · rename_i none
      rw [select_of_no_filter none]
    · rename_i filter given
      simp only [selects_eq_contains given] at selected
      obtain ⟨kind, member⟩ := selected
      split
      · rename_i empty
        rw [empty] at member
        cases member
      · simp only [select, selects_eq_contains given, RuleSet.only]

/-- A filter that names no kind is an error, not an empty selection. -/
theorem exists_selects_of_ruleSet (built : options.ruleSet settings = .ok set) :
    ∃ kind, options.selects kind = true := by
  cases given : options.rules with
  | none => exact ⟨.indentation, by simp [selects, given]⟩
  | some filter =>
    simp only [ruleSet, given, bind_eq_ok_iff] at built
    obtain ⟨_, _, built⟩ := built
    split at built
    · cases built
    · rename_i nonempty
      obtain ⟨kind, member⟩ := List.exists_mem_of_ne_nil (kindsOf filter) nonempty
      exact ⟨kind, by simpa [selects_eq_contains given] using member⟩

/-- The size of the indent unit: that of the options, or else that of the settings. -/
def unitSize (options : CheckOptions) (settings : Settings) : Nat :=
  options.indentUnit.getD (RuleSet.unitSizeOf settings)

/-- Where rules can be built, they are the built-in ones with this unit. -/
theorem exists_unit_of_builtIn (built : options.builtIn settings = .ok set) :
    ∃ unit : Rules.IndentUnit,
      unit.size = options.unitSize settings ∧ set = RuleSet.ofIndentUnit unit := by
  cases given : options.indentUnit with
  | some size =>
    simp only [builtIn, given, RuleSet.ofUnit] at built
    split at built
    · rename_i unit sized
      cases built
      exact ⟨unit, by simp [unitSize, given, Rules.IndentUnit.size_of_ofNat? sized], rfl⟩
    · cases built
  | none =>
    simp only [builtIn, given, RuleSet.ofSettings, map_eq_ok_iff] at built
    obtain ⟨unit, settled, rfl⟩ := built
    exact ⟨unit, by simp [unitSize, given, RuleSet.size_of_unitOf settled], rfl⟩

/-- The rules of a check are the selected ones among the built-in ones with its indent unit. -/
theorem exists_unit_of_ruleSet (built : options.ruleSet settings = .ok set) :
    ∃ unit : Rules.IndentUnit, unit.size = options.unitSize settings ∧
      set = options.select (.ofIndentUnit unit) := by
  rw [ruleSet_of_selects (exists_selects_of_ruleSet built), map_eq_ok_iff] at built
  obtain ⟨all, built, rfl⟩ := built
  obtain ⟨unit, sized, rfl⟩ := exists_unit_of_builtIn (mapError_eq_ok_iff.mp built)
  exact ⟨unit, sized, rfl⟩

end CheckOptions

/-- The options change neither which rules are enabled nor how severe they are. -/
theorem Disk.summaryWith?_eq (disk : Disk) (change : RuleSet → RuleSet) (options : CheckOptions)
    (settings : Settings) :
    disk.summaryWith? change options settings =
      if disk.leadsTo (options.root settings) then do
        let set ← options.ruleSet settings
        let paths ← (Discovery.filesBy disk (options.apply settings).scan
          (options.root settings)).mapError (CheckError.discovery (options.root settings))
        return some ((Analyzer.build (change set).rules settings).run
          (paths.map (Discovery.loadBy disk.read (options.root settings))))
      else return none := by
  have root : options.root (options.apply settings) = options.root settings := rfl
  simp only [summaryWith?, root]
  cases disk.leadsTo (options.root settings) <;> rfl

/-- The stages of a run in their order: the root, the rules, the files, then the reading. -/
theorem Disk.summary?_eq (disk : Disk) (options : CheckOptions) (settings : Settings) :
    disk.summary? options settings =
      if disk.leadsTo (options.root settings) then do
        let set ← options.ruleSet settings
        let paths ← (Discovery.filesBy disk (options.apply settings).scan
          (options.root settings)).mapError (CheckError.discovery (options.root settings))
        return some ((Analyzer.build set.rules settings).run
          (paths.map (Discovery.loadBy disk.read (options.root settings))))
      else return none := disk.summaryWith?_eq id options settings

namespace Workspace

variable {w : Workspace} {disk : Disk} {options : CheckOptions} {settings : Settings}
  {file : Option Path} {set : RuleSet} {paths : List Path}

theorem summary?_eq (w : Workspace) (options : CheckOptions) (settings : Settings) :
    w.summary? options settings =
      if w.leadsTo (options.root settings) then do
        let set ← options.ruleSet settings
        let paths ← (Discovery.files w (options.apply settings).scan
          (options.root settings)).mapError (CheckError.discovery (options.root settings))
        return some ((Analyzer.build set.rules settings).run
          (paths.map (Discovery.load w (options.root settings))))
      else return none := w.disk.summary?_eq options settings

/-- The summary of a run over the files at some paths. -/
def runBy (read : Reader) (options : CheckOptions) (settings : Settings) (set : RuleSet)
    (paths : List Path) : Summary :=
  (Analyzer.build set.rules settings).run
    (paths.map (Discovery.loadBy read (options.root settings)))

theorem check_eq (w : Workspace) (options : CheckOptions) (file : Option Path) :
    w.check options file = do
      let settings ← ((SettingsLocation.find w options.project file).load w).mapError
        CheckError.settings
      match ← w.summary? options settings with
      | none => return (.error, "")
      | some summary =>
        return (Status.ofSummary summary settings.threshold, summary.render options.format) := rfl

/-- A check goes through its stages one after the other. -/
theorem checkBy_eq (w : Workspace) (disk : Disk) (options : CheckOptions) (file : Option Path) :
    w.checkBy disk options file = do
      let settings ← ((SettingsLocation.find w options.project file).load w).mapError
        CheckError.settings
      if disk.leadsTo (options.root settings) then
        let set ← options.ruleSet settings
        let paths ← (Discovery.filesBy disk (options.apply settings).scan
          (options.root settings)).mapError (CheckError.discovery (options.root settings))
        let summary := runBy disk.read options settings set paths
        return (Status.ofSummary summary settings.threshold, summary.render options.format)
      else return (.error, "") := by
  rw [checkBy, checkWith]
  refine bind_congr_of_ok fun settings _ => ?_
  rw [Disk.summaryWith?_eq]
  cases disk.leadsTo (options.root settings) with
  | false => rfl
  | true =>
    cases options.ruleSet settings with
    | error error => rfl
    | ok set =>
      simp only [if_true]
      cases Discovery.filesBy disk (options.apply settings).scan (options.root settings) <;> rfl

/-- A check whose stages all succeed prints the summary of a run over the files that it discovers. -/
theorem checkBy_of_run
    (loaded : (SettingsLocation.find w options.project file).load w = .ok settings)
    (leads : disk.leadsTo (options.root settings) = true)
    (built : options.ruleSet settings = .ok set)
    (discovered :
      Discovery.filesBy disk (options.apply settings).scan (options.root settings) = .ok paths) :
    w.checkBy disk options file =
      let summary := runBy disk.read options settings set paths
      .ok (.ofSummary summary settings.threshold, summary.render options.format) := by
  rw [checkBy_eq, loaded]
  change (if disk.leadsTo (options.root settings) = true then _ else _) = _
  rw [if_pos leads, built, discovered]
  rfl

/-- A check prints nothing but the summary of a run over the files that it discovers. -/
theorem exists_run_of_checkBy {status : Status} {text : String}
    (checked : w.checkBy disk options file = .ok (status, text)) (printed : text ≠ "") :
    ∃ settings paths, ∃ unit : Rules.IndentUnit,
      (SettingsLocation.find w options.project file).load w = .ok settings ∧
      Discovery.filesBy disk (options.apply settings).scan (options.root settings) = .ok paths ∧
      unit.size = options.unitSize settings ∧
      status = .ofSummary
        (runBy disk.read options settings (options.select (.ofIndentUnit unit)) paths)
        settings.threshold := by
  simp only [checkBy_eq, bind_eq_ok_iff, mapError_eq_ok_iff] at checked
  obtain ⟨settings, loaded, checked⟩ := checked
  split at checked
  · simp only [bind_eq_ok_iff, mapError_eq_ok_iff] at checked
    obtain ⟨set, built, paths, discovered, checked⟩ := checked
    cases checked
    obtain ⟨unit, sized, rfl⟩ := CheckOptions.exists_unit_of_ruleSet built
    exact ⟨settings, paths, unit, loaded, discovered, sized, rfl⟩
  · cases checked
    contradiction

end Workspace

end LineLint
