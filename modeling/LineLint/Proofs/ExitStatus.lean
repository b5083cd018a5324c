import LineLint.Proofs.BuildOutput
import LineLint.Proofs.Disks

/-! # The status of a check

The status of a check that gets as far as printing depends on its settings and on the files that
could be read, and not on the other ones. It is an error if no file could be read, and a failure if
a line of one of them breaks a rule that is enabled and selected, with a severity that reaches the
threshold.
-/

namespace LineLint

namespace Status

variable {summary : Summary} {threshold : Severity}

/-- An error status means that nothing was analyzed, even when files were found. -/
theorem ofSummary_eq_error_iff :
    ofSummary summary threshold = .error ↔ summary.reports = [] := by
  rw [← Summary.outcome_eq_noFiles_iff, ofSummary]
  cases summary.outcome <;> cases summary.hasViolationsAt threshold <;> simp

theorem ofSummary_eq_failure_iff :
    ofSummary summary threshold = .failure ↔ summary.hasViolationsAt threshold = true := by
  by_cases empty : summary.reports = []
  · have nothing : summary.hasViolationsAt threshold = false := by
      simp [Summary.hasViolationsAt, Summary.findings, empty]
    simp [ofSummary_eq_error_iff.mpr empty, nothing]
  · have some := mt Summary.outcome_eq_noFiles_iff.mp empty
    rw [ofSummary]
    cases outcome : summary.outcome with
    | noFiles => exact absurd outcome some
    | clean | issuesFound => cases summary.hasViolationsAt threshold <;> simp

end Status

/-- A line breaks the rule of a kind that is enabled and selected, as severely as the threshold
asks. -/
structure Offense (options : CheckOptions) (settings : Settings) (line : List Char)
    (kind : RuleKind) : Prop where
  enabled : settings.isEnabled kind = true
  selected : options.selects kind = true
  violated : ∃ column name, Violation (options.unitSize settings) line kind column name
  severe : ((settings.severityFor? kind).getD .error).reaches settings.threshold = true

namespace Analyzer

variable {unit : Rules.IndentUnit} {line : SourceLine} {kind : RuleKind} {f : Finding}

/-- Under default settings every rule runs, at its own severity. -/
theorem mem_checkLine_default_iff {rules : List Rule} :
    f ∈ (build rules .default).checkLine line ↔ ∃ rule ∈ rules, f ∈ rule.check line := by
  rw [mem_checkLine_build]
  constructor
  · rintro ⟨rule, added, _, g, found, rfl⟩
    exact ⟨rule, added, found⟩
  · rintro ⟨rule, added, found⟩
    exact ⟨rule, added, rfl, f, found, rfl⟩

/-- A built-in rule finds something on a line where the line breaks it, and nothing less than an
error. -/
theorem exists_mem_check_iff {severity : Severity} :
    (∃ rule ∈ (RuleSet.ofIndentUnit unit).rules, rule.kind = kind ∧
      ∃ f ∈ rule.check line, f.severity = severity) ↔
      severity = .error ∧ ∃ column name, Violation unit.size line.text.toList kind column name := by
  constructor
  · rintro ⟨rule, added, rfl, f, found, rfl⟩
    have member := mem_checkLine_default_iff.mpr ⟨rule, added, found⟩
    have about := (RuleSet.tidy_of_mem added).kind_eq line f found
    obtain ⟨_, violation⟩ := exists_mem_default_iff.mp ⟨f, member, rfl, rfl, about, rfl⟩
    exact ⟨(file_and_severity_of_mem_default member).2, _, _, violation⟩
  · rintro ⟨rfl, column, name, violation⟩
    rw [← String.toList_ofList (l := name)] at violation
    obtain ⟨f, member, _, _, about, _⟩ := exists_mem_default_iff.mpr ⟨rfl, violation⟩
    obtain ⟨rule, added, found⟩ := mem_checkLine_default_iff.mp member
    refine ⟨rule, added, ?_, f, found, (file_and_severity_of_mem_default member).2⟩
    rw [← (RuleSet.tidy_of_mem added).kind_eq line f found, about]

/-- What the selected rules find on a line reaches the threshold where the line holds an offense. -/
theorem exists_reaching_iff {options : CheckOptions} {settings : Settings}
    (sized : unit.size = options.unitSize settings) :
    (∃ f ∈ (build (options.select (.ofIndentUnit unit)).rules settings).checkLine line,
      f.severity.reaches settings.threshold = true) ↔
      ∃ kind, Offense options settings line.text.toList kind := by
  constructor
  · rintro ⟨f, member, severe⟩
    obtain ⟨rule, chosen, enabled, g, found, rfl⟩ := mem_checkLine_build.mp member
    obtain ⟨added, selected⟩ := CheckOptions.mem_select_iff.mp chosen
    obtain ⟨error, violated⟩ := exists_mem_check_iff.mp ⟨rule, added, rfl, g, found, rfl⟩
    rw [sized] at violated
    rw [error] at severe
    exact ⟨rule.kind, enabled, selected, violated, severe⟩
  · rintro ⟨kind, enabled, selected, violated, severe⟩
    rw [← sized] at violated
    obtain ⟨rule, added, rfl, g, found, error⟩ := exists_mem_check_iff.mpr ⟨rfl, violated⟩
    have chosen := CheckOptions.mem_select_iff.mpr ⟨added, selected⟩
    refine ⟨_, mem_checkLine_build.mpr ⟨rule, chosen, enabled, g, found, rfl⟩, ?_⟩
    rw [error]
    exact severe

end Analyzer

/-- A run reaches the threshold where a file that can be read holds an offense. -/
theorem hasViolationsAt_run_iff {options : CheckOptions} {settings : Settings}
    {unit : Rules.IndentUnit} (sized : unit.size = options.unitSize settings) (read : Reader)
    (root : Path) (paths : List Path) :
    ((Analyzer.build (options.select (.ofIndentUnit unit)).rules settings).run
      (paths.map (Discovery.loadBy read root))).hasViolationsAt settings.threshold = true ↔
      ∃ octets ∈ read.contents paths, ∃ line ∈ Text.lines (Discovery.decode octets).toList,
        ∃ kind, Offense options settings line kind := by
  simp only [Summary.hasViolationsAt, List.any_eq_true, mem_findings_run_iff,
    Reader.mem_contents_iff]
  constructor
  · rintro ⟨f, ⟨path, found, octets, read, line, cut, member⟩, severe⟩
    have offense := (Analyzer.exists_reaching_iff sized).mp ⟨f, member, severe⟩
    refine ⟨octets, ⟨path, found, read⟩, line.text.toList, ?_, offense⟩
    rw [← SourceLine.map_toList_ofContent (path.idBelow root)]
    exact List.mem_map_of_mem cut
  · rintro ⟨octets, ⟨path, found, read⟩, line, cut, offense⟩
    rw [← SourceLine.map_toList_ofContent (path.idBelow root)] at cut
    obtain ⟨source, listed, rfl⟩ := List.mem_map.mp cut
    obtain ⟨f, member, severe⟩ := (Analyzer.exists_reaching_iff sized).mpr offense
    exact ⟨f, ⟨path, found, octets, read, source, listed, member⟩, severe⟩

/-- A check with a disk that gets as far as printing, with the settings that it loads, the files that
it discovers, and its status. -/
structure Workspace.Checked (w : Workspace) (disk : Disk) (options : CheckOptions)
    (file : Option Path) (settings : Settings) (paths : List Path) (status : Status) : Prop where
  loaded : (SettingsLocation.find w options.project file).load w = .ok settings
  discovered :
    Discovery.filesBy disk (options.apply settings).scan (options.root settings) = .ok paths
  printed : ∃ text, text ≠ "" ∧ w.checkBy disk options file = .ok (status, text)

namespace Workspace.Checked

variable {w : Workspace} {disk : Disk} {options : CheckOptions} {file : Option Path}
  {settings : Settings} {paths : List Path} {status : Status}

/-- The status is that of a run with the selected rules. -/
theorem exists_eq_ofSummary (run : w.Checked disk options file settings paths status) :
    ∃ unit : Rules.IndentUnit, unit.size = options.unitSize settings ∧
      status = .ofSummary
        (runBy disk.read options settings (options.select (.ofIndentUnit unit)) paths)
        settings.threshold := by
  obtain ⟨loaded, discovered, text, printed, checked⟩ := run
  obtain ⟨settings', paths', unit, loaded', discovered', sized, same⟩ :=
    exists_run_of_checkBy checked printed
  obtain rfl : settings = settings' := Except.ok.inj (loaded.symm.trans loaded')
  obtain rfl : paths = paths' := Except.ok.inj (discovered.symm.trans discovered')
  exact ⟨unit, sized, same⟩

/-- Unreadable files alone do not fail a run that read another. -/
theorem eq_error_iff (run : w.Checked disk options file settings paths status) :
    status = .error ↔ disk.read.contents paths = [] := by
  obtain ⟨unit, _, rfl⟩ := run.exists_eq_ofSummary
  rw [Status.ofSummary_eq_error_iff]
  exact reports_run_eq_nil_iff

/-- A run fails by a line that breaks a selected rule at the threshold or above. -/
theorem eq_failure_iff (run : w.Checked disk options file settings paths status) :
    status = .failure ↔
      ∃ octets ∈ disk.read.contents paths, ∃ line ∈ Text.lines (Discovery.decode octets).toList,
        ∃ kind, Offense options settings line kind := by
  obtain ⟨unit, sized, rfl⟩ := run.exists_eq_ofSummary
  rw [Status.ofSummary_eq_failure_iff]
  exact hasViolationsAt_run_iff sized ..

theorem eq_success_iff (run : w.Checked disk options file settings paths status) :
    status = .success ↔ disk.read.contents paths ≠ [] ∧
      ∀ octets ∈ disk.read.contents paths, ∀ line ∈ Text.lines (Discovery.decode octets).toList,
        ∀ kind, ¬ Offense options settings line kind := by
  have neither : status = .success ↔ status ≠ .error ∧ status ≠ .failure := by
    cases status <;> simp
  rw [neither, ne_eq, run.eq_error_iff, ne_eq, run.eq_failure_iff]
  simp only [not_exists, not_and, ne_eq]

end Workspace.Checked

/-- The status of a check that prints is an error if no discovered file can be read. Otherwise it is
a failure if some line of a file that can be read holds an offense, and a success if none does. So
it is the status of every check with the same settings and the same contents, whatever files next to
these cannot be read. This is so whatever the disk answers; the disk of the workspace makes the check
of the program. -/
theorem status_of_check {w : Workspace} {disk : Disk} {options : CheckOptions}
    {file : Option Path} {status : Status} {text : String}
    (checked : w.checkBy disk options file = .ok (status, text)) (printed : text ≠ "") :
    ∃ settings paths, w.Checked disk options file settings paths status ∧
      (status = .error ↔ disk.read.contents paths = []) ∧
      (status = .failure ↔
        ∃ octets ∈ disk.read.contents paths, ∃ line ∈ Text.lines (Discovery.decode octets).toList,
          ∃ kind, Offense options settings line kind) ∧
      (status = .success ↔ disk.read.contents paths ≠ [] ∧
        ∀ octets ∈ disk.read.contents paths, ∀ line ∈ Text.lines (Discovery.decode octets).toList,
          ∀ kind, ¬ Offense options settings line kind) ∧
      ∀ (other : Workspace) (disk' : Disk) (file' : Option Path) (paths' : List Path)
        (status' : Status), other.Checked disk' options file' settings paths' status' →
          disk'.read.contents paths' = disk.read.contents paths → status' = status := by
  obtain ⟨settings, paths, _, loaded, discovered, _, _⟩ :=
    Workspace.exists_run_of_checkBy checked printed
  have run : w.Checked disk options file settings paths status :=
    ⟨loaded, discovered, text, printed, checked⟩
  refine ⟨settings, paths, run, run.eq_error_iff, run.eq_failure_iff, run.eq_success_iff, ?_⟩
  intro other disk' file' paths' status' run' same
  have error := run'.eq_error_iff
  have failure := run'.eq_failure_iff
  rw [same, ← run.eq_error_iff] at error
  rw [same, ← run.eq_failure_iff] at failure
  cases status <;> cases status' <;> simp_all

/-- A tree of settings where nothing is set and a file of one line that begins with a blank. -/
def FileTree.oneLine : FileTree where
  entries := [(["s.toml"], .file []), (["a.cs"], .file [0x20, 0x66, 0x28])]
  places_nodup := by decide
  named := by
    intro place entry member
    simp only [List.mem_cons, Prod.mk.injEq, List.not_mem_nil, or_false] at member
    rcases member with ⟨rfl, rfl⟩ | ⟨rfl, rfl⟩ <;> decide
  inDirectory := by
    intro place entry member
    simp only [List.mem_cons, Prod.mk.injEq, List.not_mem_nil, or_false] at member
    rcases member with ⟨rfl, rfl⟩ | ⟨rfl, rfl⟩ <;> decide

theorem FileTree.locate_oneLine {name : String} (listed : name = "s.toml" ∨ name = "a.cs") :
    oneLine.locate .target [] ⟨name⟩ = .ok [name] := by
  have steps : (Path.mk name).steps = [.into name] := by rcases listed with rfl | rfl <;> decide
  rcases listed with rfl | rfl
  all_goals
    rw [locate, if_neg (by decide), if_neg (by decide), if_neg (by decide), steps]
    simp only [follow]
    rfl

/-- A disk with a directory in which a walk notes two files. The first one holds a line that begins with
a blank, and the other one may not be read. -/
def Disk.half : Disk where
  leadsTo _ := true
  isFile _ := false
  walk _ _ := .ok [["a.cs"], ["b.cs"]]
  read path :=
    if path = ⟨"./a.cs"⟩ then .ok [0x20, 0x66, 0x28] else .error "Permission denied (os error 13)"

theorem filesBy_half : Discovery.filesBy .half {} ⟨"."⟩ = .ok [⟨"./a.cs"⟩, ⟨"./b.cs"⟩] := by
  have kept : ∀ names ∈ [["a.cs"], ["b.cs"]],
      ((names.getLast?.any fun name => Discovery.hasExtension ["cs"] name) &&
        !Discovery.isExcluded Discovery.defaultPatterns ⟨"."⟩ (Path.joinAll ⟨"."⟩ names)) = true := by
    intro names member
    have isName : ∀ name ∈ names, IsName name := by fin_cases member <;> decide
    have nonempty : names ≠ [] := by fin_cases member <;> decide
    rw [Discovery.isExcluded_default nonempty isName]
    fin_cases member <;> decide
  rw [Discovery.filesBy_of_excludes Discovery.excludes_default, if_neg (by decide)]
  change Except.ok (Discovery.sifted {} Discovery.defaultPatterns ⟨"."⟩ [["a.cs"], ["b.cs"]]) = _
  rw [Discovery.sifted, List.filter_eq_self.mpr kept, List.mergeSort_of_pairwise (by decide)]
  exact congrArg Except.ok (by decide)

/-- The check of the line fails for its indentation, which is the only kind selected, although the file
beside it may not be read. -/
theorem status_of_check_of_one_line :
    let w : Workspace := { tree := .oneLine, current := [] }
    let options : CheckOptions := { path := some ⟨"."⟩, rules := some "naming, sl001 " }
    ∃ text, w.checkBy .half options (some ⟨"s.toml"⟩) = .ok (.failure, text) ∧ text ≠ "" := by
  intro w options
  have loaded : (SettingsLocation.find w options.project (some ⟨"s.toml"⟩)).load w =
      .ok .default := by
    change SettingsLocation.loadFile w ⟨"s.toml"⟩ = _
    rw [SettingsLocation.loadFile, Workspace.read, FileTree.read,
      FileTree.locate_oneLine (.inl rfl)]
    rfl
  have built : options.ruleSet .default = .ok (options.select (.ofIndentUnit .default)) :=
    CheckOptions.ruleSet_of_selects ⟨.indentation, by decide⟩ .default
  have discovered : Discovery.filesBy .half (options.apply .default).scan (options.root .default) =
      .ok [⟨"./a.cs"⟩, ⟨"./b.cs"⟩] := filesBy_half
  have leads : Disk.half.leadsTo (options.root .default) = true := rfl
  have checked := Workspace.checkBy_of_run loaded leads built discovered
  have printed := Summary.render_ne_empty (Workspace.runBy Disk.half.read options .default
    (options.select (.ofIndentUnit .default)) [⟨"./a.cs"⟩, ⟨"./b.cs"⟩]) .text
  obtain ⟨settings, paths, run, _, failure, _⟩ := status_of_check checked printed
  obtain rfl : Settings.default = settings := Except.ok.inj (loaded.symm.trans run.loaded)
  obtain rfl : [⟨"./a.cs"⟩, ⟨"./b.cs"⟩] = paths :=
    Except.ok.inj (discovered.symm.trans run.discovered)
  have uneven : Violation 4 " f(".toList .indentation 1 " f(".toList := .indentation (by decide)
  have offense : Offense options .default " f(".toList .indentation :=
    ⟨rfl, by decide, ⟨1, _, uneven⟩, rfl⟩
  have member : [0x20, 0x66, 0x28] ∈ Disk.half.read.contents [⟨"./a.cs"⟩, ⟨"./b.cs"⟩] :=
    Reader.mem_contents_iff.mpr ⟨_, List.mem_cons_self, rfl⟩
  have failed := failure.mpr ⟨_, member, _, by decide, _, offense⟩
  dsimp only at checked
  rw [failed] at checked
  exact ⟨_, checked, printed⟩

end LineLint
