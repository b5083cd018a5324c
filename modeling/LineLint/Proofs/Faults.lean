import LineLint.Program
import LineLint.Proofs.Disks
import LineLint.Proofs.Following
import LineLint.Proofs.ScanFilters

/-! # What can go wrong in a check

A check comes to its stages in a fixed order, and the first one at which something is wrong decides
what it comes to. Nothing is printed then, and otherwise the summary of all discovered files is. A
file that cannot be read is nothing that is wrong with a check.
-/

namespace LineLint

inductive CheckStage where
  | settings
  | root
  | unit
  | rules
  | exclude
  | walk
deriving DecidableEq, Repr

/-- The number of stages before a stage. -/
def CheckStage.rank : CheckStage → Nat
  | settings => 0
  | root => 1
  | unit => 2
  | rules => 3
  | exclude => 4
  | walk => 5

section Settings

/-- A path leads to no settings. -/
inductive SettingsLocation.IsBad (w : Workspace) (path : Path) : SettingsError → Prop
  | unreadable {error : FileError} (read : w.read path = .error error) :
      IsBad w path (.unreadable path error)
  | notUtf8 {octets : List UInt8} (read : w.read path = .ok octets)
      (undecoded : Text.Utf8.decode? octets = none) : IsBad w path (.unreadable path .notUtf8)
  | invalid {octets : List UInt8} {text : List Char} (read : w.read path = .ok octets)
      (decoded : Text.Utf8.decode? octets = some text) (unparsed : Settings.ofText? text = none) :
      IsBad w path (.invalid path)

theorem SettingsLocation.loadFile_eq_error_iff {w : Workspace} {path : Path}
    {error : SettingsError} : loadFile w path = .error error ↔ IsBad w path error := by
  constructor
  · intro failed
    rw [loadFile] at failed
    split at failed
    · rename_i read
      cases failed
      exact .unreadable read
    · rename_i octets read
      split at failed
      · rename_i undecoded
        cases failed
        exact .notUtf8 read undecoded
      · rename_i text decoded
        split at failed
        · cases failed
        · rename_i unparsed
          cases failed
          exact .invalid read decoded unparsed
  · intro bad
    cases bad with
    | unreadable read => simp [loadFile, read]
    | notUtf8 read undecoded => simp [loadFile, read, undecoded]
    | invalid read decoded unparsed => simp [loadFile, read, decoded, unparsed]

/-- Default settings cannot fail to load: only a file can be bad. -/
theorem SettingsLocation.load_eq_error_iff {w : Workspace} {location : SettingsLocation}
    {error : SettingsError} : location.load w = .error error ↔
      ∃ path, location.path? = some path ∧ IsBad w path error := by
  rw [load]
  cases location.path? with
  | none => simp
  | some path => simp [loadFile_eq_error_iff]

end Settings

section Unit

/-- What the settings give as the indent unit is none. -/
inductive RuleSet.BadUnit (settings : Settings) : UnitError → Prop
  | notInteger {value : Toml.Value} (set : settings.option? .indentation unitKey = some value)
      (other : ∀ size, value ≠ .integer size) : BadUnit settings (.notInteger value)
  | notPositive {size : Int}
      (set : settings.option? .indentation unitKey = some (.integer size)) (small : size ≤ 0) :
      BadUnit settings (.notPositive size)

/-- The unit is bad when its option is set and is not a positive integer. -/
theorem RuleSet.unitOf_eq_error_iff {settings : Settings} {error : UnitError} :
    unitOf settings = .error error ↔ BadUnit settings error := by
  constructor
  · intro failed
    rw [unitOf] at failed
    split at failed
    · cases failed
    · rename_i value set
      split at failed
      · rename_i none
        cases failed
        refine .notInteger set fun size same => ?_
        rw [Toml.Value.toInteger?_eq_some_iff.mpr same] at none
        cases none
      · rename_i size integer
        rw [Toml.Value.toInteger?_eq_some_iff.mp integer] at set
        split at failed
        · cases failed
        · rename_i none
          cases failed
          have small := Rules.IndentUnit.ofNat?_eq_none_iff.mp none
          exact .notPositive set (by omega)
  · intro bad
    cases bad with
    | @notInteger value set other =>
      have none : value.toInteger? = none :=
        Option.eq_none_iff_forall_ne_some.mpr fun size same =>
          other size (Toml.Value.toInteger?_eq_some_iff.mp same)
      simp [unitOf, set, none]
    | @notPositive size set small =>
      have integer : (Toml.Value.integer size).toInteger? = some size :=
        Toml.Value.toInteger?_eq_some_iff.mpr rfl
      have none : Rules.IndentUnit.ofNat? size.toNat = none :=
        Rules.IndentUnit.ofNat?_eq_none_iff.mpr (by omega)
      simp [unitOf, set, integer, none]

theorem RuleSet.ofSettings_eq_error_iff {settings : Settings} {error : UnitError} :
    ofSettings settings = .error error ↔ BadUnit settings error := by
  rw [← unitOf_eq_error_iff, ofSettings]
  cases unitOf settings <;> simp [Except.map]

theorem RuleSet.ofUnit_eq_error_iff {size : Nat} {error : UnitError} :
    ofUnit size = .error error ↔ size = 0 ∧ error = .notPositive 0 := by
  rw [← Rules.IndentUnit.ofNat?_eq_none_iff, ofUnit]
  cases Rules.IndentUnit.ofNat? size <;> simp [eq_comm]

/-- The indent unit of the options, or else of the settings, is none. -/
inductive CheckOptions.BadUnit (options : CheckOptions) (settings : Settings) :
    RuleSet.UnitError → Prop
  | zero (given : options.indentUnit = some 0) : BadUnit options settings (.notPositive 0)
  | inSettings {error : RuleSet.UnitError} (unset : options.indentUnit = none)
      (bad : RuleSet.BadUnit settings error) : BadUnit options settings error

/-- A unit of the options replaces that of the settings, errors included. -/
theorem CheckOptions.builtIn_eq_error_iff {options : CheckOptions} {settings : Settings}
    {error : RuleSet.UnitError} :
    options.builtIn settings = .error error ↔ options.BadUnit settings error := by
  constructor
  · intro failed
    rw [builtIn] at failed
    split at failed
    · rename_i size given
      obtain ⟨rfl, rfl⟩ := RuleSet.ofUnit_eq_error_iff.mp failed
      exact .zero given
    · rename_i unset
      exact .inSettings unset (RuleSet.ofSettings_eq_error_iff.mp failed)
  · intro bad
    cases bad with
    | zero given =>
      rw [builtIn, given]
      exact RuleSet.ofUnit_eq_error_iff.mpr ⟨rfl, rfl⟩
    | inSettings unset bad =>
      rw [builtIn, unset]
      exact RuleSet.ofSettings_eq_error_iff.mpr bad

/-- Where the indent unit is sound, a filter that names no kind is what is wrong. -/
theorem CheckOptions.ruleSet_of_filter {options : CheckOptions} {settings : Settings}
    {set : RuleSet} {filter : String} (built : options.builtIn settings = .ok set)
    (given : options.rules = some filter) (unknown : ∀ kind, options.selects kind = false) :
    options.ruleSet settings = .error (.noKnownRule filter) := by
  have none : kindsOf filter = [] := by
    apply List.eq_nil_iff_forall_not_mem.mpr
    intro kind member
    have selected := unknown kind
    rw [selects_eq_contains given] at selected
    simp [member] at selected
  rw [ruleSet_of_kinds built given, if_pos none]

end Unit

namespace Discovery

/-- The first exclude pattern that is no pattern is what is wrong with the list of them. -/
inductive BadExclude : List String → DiscoveryError → Prop
  | here {pattern : String} {rest : List String} {fault : Exclude.PatternError}
      (bad : Exclude.ofText pattern.toList = .error fault) :
      BadExclude (pattern :: rest) (.badExclude pattern fault)
  | later {pattern : String} {rest : List String} {tokens : List Exclude.Token}
      {error : DiscoveryError} (valid : Exclude.ofText pattern.toList = .ok tokens)
      (bad : BadExclude rest error) : BadExclude (pattern :: rest) error

/-- The first bad pattern is the one that is reported. -/
theorem excludes_eq_error_iff {patterns : List String} {error : DiscoveryError} :
    excludes patterns = .error error ↔ BadExclude patterns error := by
  constructor
  · intro failed
    induction patterns with
    | nil => cases failed
    | cons pattern rest ih =>
      rw [excludes] at failed
      split at failed
      · rename_i bad
        cases failed
        exact .here bad
      · rename_i tokens valid
        cases later : excludes rest with
        | ok others => simp [later, Except.map] at failed
        | error other =>
          obtain rfl : other = error := by simpa [later, Except.map] using failed
          exact .later valid (ih later)
  · intro bad
    induction bad with
    | here bad => simp [excludes, bad]
    | later valid _ ih => simp [excludes, valid, ih, Except.map]

variable {w : Workspace} {root : Path}

/-- The ignore files above a directory that is searched hold lines that are no patterns. -/
structure BadIgnoreFiles (w : Workspace) (root : Path) (messages : List String) : Prop where
  searched : root.components ≠ standardInput.components
  noted : ∃ place, w.tree.locate .target w.current root = .ok place ∧
    w.tree.isDirectory place = true ∧ (Ignoring.load w root place).messages = messages
  nonempty : messages ≠ []

/-- If the disk holds the tree, a walk of what is there fails only for bad ignore files, and only if
they are respected. -/
theorem walker_eq_error_iff (leads : w.leadsTo root = true) {respectGitignore : Bool}
    {error : DiscoveryError} :
    w.walker respectGitignore root = .error error ↔
      respectGitignore = true ∧
        ∃ messages, BadIgnoreFiles w root messages ∧ error = .badIgnoreFiles messages := by
  obtain ⟨place, located⟩ : ∃ place, w.tree.locate .target w.current root = .ok place := by
    rw [Workspace.leadsTo, FileTree.leadsTo] at leads
    split at leads
    · exact ⟨_, ‹_›⟩
    · cases leads
  obtain ⟨named, itself⟩ := FileTree.exists_locate_itself located
  constructor
  · intro failed
    rw [Workspace.walker] at failed
    split at failed
    · cases failed
    rename_i searched
    simp only [itself, located] at failed
    split at failed
    · rename_i isDirectory
      split at failed
      · cases failed
      · rename_i nonempty
        cases failed
        cases respectGitignore with
        | false => exact absurd rfl nonempty
        | true => exact ⟨rfl, _, ⟨searched, ⟨place, located, isDirectory, rfl⟩, nonempty⟩, rfl⟩
    · cases failed
  · rintro ⟨rfl, messages, ⟨searched, ⟨other, alsoLocated, isDirectory, rfl⟩, nonempty⟩, rfl⟩
    obtain rfl : place = other := Except.ok.inj (located.symm.trans alsoLocated)
    rw [Workspace.walker, if_neg searched]
    simp only [itself, located, isDirectory, if_true]

end Discovery

namespace Workspace

/-- The settings of a check, or those where nothing is set if they cannot be loaded. -/
def settingsFor (w : Workspace) (options : CheckOptions) (file : Option Path) : Settings :=
  ((SettingsLocation.find w options.project file).load w).toOption.getD .default

/-- Something is wrong at a stage of a check, and what the check comes to if nothing is wrong
before. What the stages behind the first one look at is judged by the settings of the check. -/
inductive Fault (w : Workspace) (disk : Disk) (options : CheckOptions) (file : Option Path) :
    CheckStage → Except CheckError (Status × String) → Prop
  | settings {path : Path} {error : SettingsError}
      (location : (SettingsLocation.find w options.project file).path? = some path)
      (bad : SettingsLocation.IsBad w path error) :
      Fault w disk options file .settings (.error (.settings error))
  | root (missing : disk.leadsTo (options.root (w.settingsFor options file)) = false) :
      Fault w disk options file .root (.ok (.error, ""))
  | unit {error : RuleSet.UnitError}
      (bad : options.BadUnit (w.settingsFor options file) error) :
      Fault w disk options file .unit (.error (.unit error))
  | rules {filter : String} (given : options.rules = some filter)
      (unknown : ∀ kind, options.selects kind = false) :
      Fault w disk options file .rules (.error (.noKnownRule filter))
  | exclude {error : DiscoveryError}
      (bad : Discovery.BadExclude ((w.settingsFor options file).scan.exclude ++ options.exclude)
        error) :
      Fault w disk options file .exclude
        (.error (.discovery (options.root (w.settingsFor options file)) error))
  /-- A root that is a file is not walked. -/
  | walk {error : DiscoveryError}
      (notFile : disk.isFile (options.root (w.settingsFor options file)) = false)
      (fails : disk.walk (w.settingsFor options file).scan.respectGitignore
        (options.root (w.settingsFor options file)) = .error error) :
      Fault w disk options file .walk
        (.error (.discovery (options.root (w.settingsFor options file)) error))

variable {w : Workspace} {disk : Disk} {options : CheckOptions} {file : Option Path}
  {stage : CheckStage} {outcome : Except CheckError (Status × String)}

/-- Nothing is wrong with a check before a stage. -/
def SoundBefore (w : Workspace) (disk : Disk) (options : CheckOptions) (file : Option Path)
    (stage : CheckStage) : Prop :=
  ∀ earlier outcome, w.Fault disk options file earlier outcome → stage.rank ≤ earlier.rank

theorem load_of_sound (sound : w.SoundBefore disk options file .root) :
    (SettingsLocation.find w options.project file).load w = .ok (w.settingsFor options file) := by
  cases loaded : (SettingsLocation.find w options.project file).load w with
  | ok settings =>
    rw [settingsFor, loaded]
    rfl
  | error error =>
    obtain ⟨path, location, bad⟩ := SettingsLocation.load_eq_error_iff.mp loaded
    exact absurd (sound _ _ (.settings location bad)) (by decide)

theorem SoundBefore.mono {later : CheckStage} (sound : w.SoundBefore disk options file later)
    (before : stage.rank ≤ later.rank) : w.SoundBefore disk options file stage :=
  fun earlier outcome fault => before.trans (sound earlier outcome fault)

theorem leadsTo_of_sound (sound : w.SoundBefore disk options file .unit) :
    disk.leadsTo (options.root (w.settingsFor options file)) = true := by
  cases leads : disk.leadsTo (options.root (w.settingsFor options file)) with
  | true => rfl
  | false => exact absurd (sound _ _ (.root leads)) (by decide)

theorem builtIn_of_sound (sound : w.SoundBefore disk options file .rules) :
    ∃ set, options.builtIn (w.settingsFor options file) = .ok set := by
  cases built : options.builtIn (w.settingsFor options file) with
  | ok set => exact ⟨set, rfl⟩
  | error error =>
    have bad := CheckOptions.builtIn_eq_error_iff.mp built
    exact absurd (sound _ _ (.unit bad)) (by decide)

theorem ruleSet_of_sound (sound : w.SoundBefore disk options file .exclude) :
    ∃ set, options.ruleSet (w.settingsFor options file) = .ok set := by
  obtain ⟨set, built⟩ := builtIn_of_sound (sound.mono (by decide))
  have selected : ∃ kind, options.selects kind = true := by
    by_contra none
    have unknown : ∀ kind, options.selects kind = false := by simpa using none
    cases given : options.rules with
    | none =>
      -- Without a filter every kind is selected.
      have selected : options.selects .indentation = true := by simp [CheckOptions.selects, given]
      exact absurd (selected.symm.trans (unknown .indentation)) (by decide)
    | some filter => exact absurd (sound _ _ (.rules given unknown)) (by decide)
  refine ⟨options.select set, ?_⟩
  rw [CheckOptions.ruleSet_of_selects selected, built]
  rfl

theorem excludes_of_sound (sound : w.SoundBefore disk options file .walk) :
    ∃ patterns, Discovery.excludes (options.apply (w.settingsFor options file)).scan.exclude =
      .ok patterns := by
  cases valid : Discovery.excludes (options.apply (w.settingsFor options file)).scan.exclude with
  | ok patterns => exact ⟨patterns, rfl⟩
  | error error =>
    have bad := Discovery.excludes_eq_error_iff.mp valid
    exact absurd (sound _ _ (.exclude bad)) (by decide)

/-- Behind the stages of the settings and of the root, a check builds its rules and discovers its
files. -/
theorem checkBy_of_sound (sound : w.SoundBefore disk options file .unit) (read : Reader) :
    let settings := w.settingsFor options file
    w.checkBy { disk with read } options file = do
      let set ← options.ruleSet settings
      let paths ← (Discovery.filesBy disk (options.apply settings).scan
        (options.root settings)).mapError (CheckError.discovery (options.root settings))
      let summary := runBy read options settings set paths
      return (Status.ofSummary summary settings.threshold, summary.render options.format) := by
  rw [checkBy_eq, load_of_sound (sound.mono (by decide))]
  exact if_pos (leadsTo_of_sound sound)

/-- Behind the stages of the rules, the files decide. -/
theorem checkBy_of_filesBy (sound : w.SoundBefore disk options file .exclude)
    {error : DiscoveryError}
    (failed : Discovery.filesBy disk (options.apply (w.settingsFor options file)).scan
      (options.root (w.settingsFor options file)) = .error error) (read : Reader) :
    w.checkBy { disk with read } options file =
      .error (.discovery (options.root (w.settingsFor options file)) error) := by
  obtain ⟨set, built⟩ := ruleSet_of_sound sound
  rw [checkBy_of_sound (sound.mono (by decide)), built, failed]
  rfl

/-- The first thing that is wrong decides what a check comes to. -/
theorem Fault.checkBy_eq (fault : w.Fault disk options file stage outcome)
    (first : w.SoundBefore disk options file stage) (read : Reader) :
    w.checkBy { disk with read } options file = outcome := by
  cases fault with
  | settings location bad =>
    have failed := SettingsLocation.load_eq_error_iff.mpr ⟨_, location, bad⟩
    rw [Workspace.checkBy_eq, failed]
    rfl
  | root missing =>
    rw [Workspace.checkBy_eq, load_of_sound first]
    exact if_neg (by simp [missing])
  | unit bad =>
    rw [checkBy_of_sound first,
      CheckOptions.ruleSet_of_builtIn (CheckOptions.builtIn_eq_error_iff.mpr bad)]
    rfl
  | rules given unknown =>
    obtain ⟨set, built⟩ := builtIn_of_sound first
    rw [checkBy_of_sound (first.mono (by decide)),
      CheckOptions.ruleSet_of_filter built given unknown]
    rfl
  | exclude bad =>
    have invalid := Discovery.excludes_eq_error_iff.mpr bad
    exact checkBy_of_filesBy first (Discovery.filesBy_of_no_excludes invalid) read
  | walk notFile fails =>
    obtain ⟨patterns, valid⟩ := excludes_of_sound first
    have failed : Discovery.filesBy disk (options.apply (w.settingsFor options file)).scan
      (options.root (w.settingsFor options file)) = _ := Discovery.filesBy_of_excludes valid
    have fails : disk.walk (options.apply (w.settingsFor options file)).scan.respectGitignore
      (options.root (w.settingsFor options file)) = .error _ := fails
    rw [if_neg (ne_true_of_eq_false notFile), fails] at failed
    exact checkBy_of_filesBy (first.mono (by decide)) failed read

/-- What a check prints, where it only fails or prints a summary. -/
def printed : Except CheckError (Status × String) → String
  | .ok (_, text) => text
  | .error _ => ""

theorem exists_filesBy_of_sound (sound : ∀ stage outcome, ¬ w.Fault disk options file stage outcome) :
    ∃ paths, Discovery.filesBy disk (options.apply (w.settingsFor options file)).scan
      (options.root (w.settingsFor options file)) = .ok paths := by
  have before : w.SoundBefore disk options file .walk :=
    fun earlier outcome fault => absurd fault (sound earlier outcome)
  obtain ⟨patterns, valid⟩ := excludes_of_sound before
  rw [Discovery.filesBy_of_excludes valid]
  cases isFile : disk.isFile (options.root (w.settingsFor options file)) with
  | true => exact ⟨_, rfl⟩
  | false =>
    cases walked : disk.walk (w.settingsFor options file).scan.respectGitignore
        (options.root (w.settingsFor options file)) with
    | ok noted => exact ⟨_, congrArg (Except.map _) walked⟩
    | error error => exact absurd (.walk isFile walked) (sound _ _)

/-- The stages of a check in which nothing is wrong end in the summary of all discovered files. -/
theorem exists_run_of_sound (sound : ∀ stage outcome, ¬ w.Fault disk options file stage outcome) :
    ∃ set paths, options.ruleSet (w.settingsFor options file) = .ok set ∧
      Discovery.filesBy disk (options.apply (w.settingsFor options file)).scan
        (options.root (w.settingsFor options file)) = .ok paths ∧
      ∀ read, w.checkBy { disk with read } options file =
        let summary := runBy read options (w.settingsFor options file) set paths
        .ok (Status.ofSummary summary (w.settingsFor options file).threshold,
          summary.render options.format) := by
  have before : ∀ stage, w.SoundBefore disk options file stage :=
    fun _ earlier outcome fault => absurd fault (sound earlier outcome)
  obtain ⟨set, built⟩ := ruleSet_of_sound (before _)
  obtain ⟨paths, discovered⟩ := exists_filesBy_of_sound sound
  have loaded := load_of_sound (before _)
  have leads := leadsTo_of_sound (before _)
  exact ⟨set, paths, built, discovered, fun _ => checkBy_of_run loaded leads built discovered⟩

/-- Where something is wrong with a check, something is wrong first. -/
theorem exists_first_fault (fault : w.Fault disk options file stage outcome) :
    ∃ stage outcome, w.Fault disk options file stage outcome ∧ w.SoundBefore disk options file stage := by
  -- A fault that is not the first leads to one at a stage of a smaller rank.
  induction rank : stage.rank using Nat.strong_induction_on generalizing stage outcome with
  | _ n ih =>
    by_cases sound : w.SoundBefore disk options file stage
    · exact ⟨stage, outcome, fault, sound⟩
    · simp only [SoundBefore, not_forall, Nat.not_le] at sound
      obtain ⟨earlier, other, also, before⟩ := sound
      exact ih _ (rank ▸ before) also rfl

/-- A run that stops at a fault has printed nothing. -/
theorem Fault.printed_eq (fault : w.Fault disk options file stage outcome) : printed outcome = "" := by
  cases fault <;> rfl

/-- The first stage at which something is wrong decides what a check comes to, and nothing is printed
then, whatever is wrong later and however files are read. A check prints nothing in no other case:
where nothing is wrong at any stage, it prints the one summary of all files that it discovers, in
which each of them is reported on or listed with the reason why it cannot be read. This is so
whatever the disk answers. The disk that holds the tree makes the check of the program, and there the
walk fails for bad ignore files alone. -/
theorem first_fault_decides (w : Workspace) (disk : Disk) (options : CheckOptions)
    (file : Option Path) :
    (∀ stage outcome, w.Fault disk options file stage outcome →
      w.SoundBefore disk options file stage →
        printed outcome = "" ∧ ∀ read, w.checkBy { disk with read } options file = outcome) ∧
      (∀ read, printed (w.checkBy { disk with read } options file) = "" ↔
        ∃ stage outcome, w.Fault disk options file stage outcome) ∧
      ((∀ stage outcome, ¬ w.Fault disk options file stage outcome) →
        let settings := w.settingsFor options file
        let root := options.root settings
        ∃ set paths, options.ruleSet settings = .ok set ∧
          Discovery.filesBy disk (options.apply settings).scan root = .ok paths ∧
          ∀ read : Reader, ∃ summary : Summary,
            w.checkBy { disk with read } options file =
              .ok (.ofSummary summary settings.threshold, summary.render options.format) ∧
            summary.reports.length + summary.unreadable.length = paths.length ∧
            (summary.reports = paths.filterMap fun path => (read path).toOption.map fun octets =>
              (Analyzer.build set.rules settings).analyzeSource (path.idBelow root)
                (Discovery.decode octets)) ∧
            summary.unreadable = paths.filterMap fun path =>
              match read path with
              | .ok _ => none
              | .error reason => some ⟨path.idBelow root, reason⟩) ∧
      w.checkBy w.disk options file = w.check options file ∧
      (Program.perform w ⟨.check options, file⟩).printed = printed (w.check options file) ∧
      ∀ root, w.leadsTo root = true → ∀ respectGitignore error,
        w.walker respectGitignore root = .error error ↔
          respectGitignore = true ∧ ∃ messages, Discovery.BadIgnoreFiles w root messages ∧
            error = .badIgnoreFiles messages := by
  have decides : ∀ stage outcome, w.Fault disk options file stage outcome →
      w.SoundBefore disk options file stage →
        printed outcome = "" ∧ ∀ read, w.checkBy { disk with read } options file = outcome :=
    fun _ _ fault first => ⟨fault.printed_eq, fault.checkBy_eq first⟩
  refine ⟨decides, ?_, ?_, ?_, ?_, ?_⟩
  · intro read
    constructor
    · intro nothing
      by_contra none
      have sound : ∀ stage outcome, ¬ w.Fault disk options file stage outcome := by simpa using none
      obtain ⟨set, paths, _, _, checked⟩ := exists_run_of_sound sound
      rw [checked read] at nothing
      exact Summary.render_ne_empty _ _ nothing
    · rintro ⟨_, _, fault⟩
      obtain ⟨_, _, fault, first⟩ := exists_first_fault fault
      obtain ⟨nothing, checked⟩ := decides _ _ fault first
      rw [checked, nothing]
  · intro sound settings root
    obtain ⟨set, paths, built, discovered, checked⟩ := exists_run_of_sound sound
    exact ⟨set, paths, built, discovered, fun read => ⟨_, checked read,
      length_reports_add_length_unreadable, reports_run .., unreadable_run⟩⟩
  · rfl
  · simp only [Program.perform]
    cases w.check options file <;> rfl
  · exact fun root leads _ _ => Discovery.walker_eq_error_iff leads

end Workspace

/-- A tree with a single file, in which nothing stands. -/
def FileTree.lone : FileTree where
  entries := [(["s.toml"], .file [])]
  places_nodup := by decide
  named := by
    intro place entry member
    fin_cases member
    decide
  inDirectory := by
    intro place entry member
    fin_cases member
    exact .inl rfl

namespace Workspace

/-- The tree of a single empty file, seen from its root. -/
def lone : Workspace := { tree := .lone, current := [] }

/-- Nothing is wrong with the check of an empty file under the settings that the file itself holds. -/
theorem not_fault_of_lone (walk : Walker) (read : Reader) (stage : CheckStage)
    (outcome : Except CheckError (Status × String)) :
    ¬ lone.Fault { lone.disk with walk, read } { path := some ⟨"s.toml"⟩ } (some ⟨"s.toml"⟩) stage outcome := by
  have cut : (Path.mk "s.toml").steps = [.into "s.toml"] := by decide
  have located : lone.tree.locate .target lone.current ⟨"s.toml"⟩ = .ok ["s.toml"] := by
    rw [FileTree.locate_of_steps (by decide) (by decide) (by decide) cut]
    simp only [FileTree.follow]
    rfl
  have content : lone.tree.at? ["s.toml"] = some (.file []) := by decide
  have leads : lone.leadsTo ⟨"s.toml"⟩ = true := FileTree.leadsTo_of_locate located
  have isFile : lone.isFile ⟨"s.toml"⟩ = true := FileTree.isFileAt_of_locate located content
  have read : lone.read ⟨"s.toml"⟩ = .ok [] := FileTree.read_of_locate located content
  have decoded : Text.Utf8.decode? [] = some [] := by rfl
  have parsed : Settings.ofText? [] = some .default := by decide +kernel
  have loaded : (SettingsLocation.explicit ⟨"s.toml"⟩).load lone = .ok .default := by
    change SettingsLocation.loadFile lone ⟨"s.toml"⟩ = _
    simp only [SettingsLocation.loadFile, read, decoded, parsed]
  have unset : lone.settingsFor { path := some ⟨"s.toml"⟩ } (some ⟨"s.toml"⟩) = .default := by
    change ((SettingsLocation.explicit ⟨"s.toml"⟩).load lone).toOption.getD .default = _
    rw [loaded]
    rfl
  intro fault
  cases fault with
  | settings location bad =>
    have failed := SettingsLocation.load_eq_error_iff.mpr ⟨_, location, bad⟩
    exact absurd (loaded.symm.trans failed) (by simp)
  | root missing => exact absurd (leads.symm.trans missing) (by decide)
  | unit bad =>
    rw [unset] at bad
    have failed := CheckOptions.builtIn_eq_error_iff.mpr bad
    cases failed
  | rules given => cases given
  | exclude bad =>
    rw [unset] at bad
    obtain ⟨tokens, valid⟩ := Discovery.exists_excludes_default
    have failed := Discovery.excludes_eq_error_iff.mpr bad
    exact absurd (valid.symm.trans failed) (by simp)
  | walk notFile => exact absurd (isFile.symm.trans notFile) (by decide)

/-- Where nothing lies, with an indent unit of zero, an unknown rule, a bad pattern and a walker that
may enter nothing, six things are wrong, and the settings that are not there decide. Nothing is wrong
with the check of an empty file, even if it cannot be read. -/
theorem first_fault_decides_at_once :
    let w : Workspace := { tree := .empty, current := [] }
    let settings : Option Path := some ⟨"s.toml"⟩
    let options : CheckOptions :=
      { path := some ⟨"a"⟩, rules := some "x", exclude := ["***"], indentUnit := some 0 }
    let closed : DiscoveryError := .badIgnoreFiles ["a: Permission denied (os error 13)"]
    let walk : Walker := fun _ _ => .error closed
    let disk : Disk := { w.disk with walk }
    let absent : Except CheckError (Status × String) :=
      .error (.settings (.unreadable ⟨"s.toml"⟩ .notFound))
    (w.Fault disk options settings .settings absent ∧
      w.Fault disk options settings .root (.ok (.error, "")) ∧
      w.Fault disk options settings .unit (.error (.unit (.notPositive 0))) ∧
      w.Fault disk options settings .rules (.error (.noKnownRule "x")) ∧
      w.Fault disk options settings .exclude
        (.error (.discovery ⟨"a"⟩ (.badExclude "***" ⟨2, .wildcards⟩))) ∧
      w.Fault disk options settings .walk (.error (.discovery ⟨"a"⟩ closed)) ∧
      w.SoundBefore disk options settings .settings ∧
      ∀ read, w.checkBy { disk with read } options settings = absent) ∧
      let options : CheckOptions := { path := some ⟨"s.toml"⟩ }
      let disk : Disk := { lone.disk with walk }
      (∀ stage outcome, ¬ lone.Fault disk options settings stage outcome) ∧
        ∀ read, printed (lone.checkBy { disk with read } options settings) ≠ "" := by
  intro w settings options closed walk disk absent
  have missing : ∀ path : Path, path = ⟨"s.toml"⟩ ∨ path = ⟨"a"⟩ →
      w.tree.locate .target w.current path = .error .notFound := by
    rintro path (rfl | rfl)
    · have cut : (Path.mk "s.toml").steps = [.into "s.toml"] := by decide
      rw [FileTree.locate_of_steps (by decide) (by decide) (by decide) cut]
      simp only [FileTree.follow]
      rfl
    · have cut : (Path.mk "a").steps = [.into "a"] := by decide
      rw [FileTree.locate_of_steps (by decide) (by decide) (by decide) cut]
      simp only [FileTree.follow]
      rfl
  have unread : w.read ⟨"s.toml"⟩ = .error .notFound :=
    FileTree.read_of_error (missing _ (.inl rfl))
  have absentRoot : w.leadsTo ⟨"a"⟩ = false := FileTree.leadsTo_of_error (missing _ (.inr rfl))
  have noFile : w.isFile ⟨"a"⟩ = false := by
    rw [Workspace.isFile, FileTree.isFileAt, FileTree.get?, missing _ (.inr rfl)]
  have location : (SettingsLocation.find w options.project settings).path? = some ⟨"s.toml"⟩ := rfl
  have unset : w.settingsFor options settings = .default := by
    have failed := SettingsLocation.load_eq_error_iff.mpr ⟨_, location, .unreadable unread⟩
    rw [settingsFor, failed]
    rfl
  have badPattern : Discovery.BadExclude ["**/bin/**", "**/obj/**", "***"]
      (.badExclude "***" ⟨2, .wildcards⟩) := by
    rw [← Discovery.excludes_eq_error_iff]
    cbv
  have fault : w.Fault disk options settings .settings absent :=
    .settings location (.unreadable unread)
  have first : w.SoundBefore disk options settings .settings := fun _ _ _ => Nat.zero_le _
  obtain ⟨decides, -⟩ := first_fault_decides w disk options settings
  obtain ⟨-, silent, -⟩ :=
    first_fault_decides lone { lone.disk with walk } { path := some ⟨"s.toml"⟩ } settings
  refine ⟨⟨fault, .root ?_, .unit (.zero rfl), .rules rfl ?_, ?_, ?_, first,
    (decides _ _ fault first).2⟩, not_fault_of_lone walk lone.reader, ?_⟩
  · rw [unset]
    exact absentRoot
  · intro kind
    cases kind <;> decide
  · have bad : w.Fault disk options settings .exclude
        (.error (.discovery (options.root (w.settingsFor options settings))
          (.badExclude "***" ⟨2, .wildcards⟩))) := by
      apply Fault.exclude
      rw [unset]
      exact badPattern
    rw [unset] at bad
    exact bad
  · have bad : w.Fault disk options settings .walk
        (.error (.discovery (options.root (w.settingsFor options settings)) closed)) := by
      refine .walk ?_ rfl
      rw [unset]
      exact noFile
    rw [unset] at bad
    exact bad
  · intro read nothing
    obtain ⟨_, _, bad⟩ := (silent read).mp nothing
    exact not_fault_of_lone walk lone.reader _ _ bad

end Workspace

end LineLint
