import LineLint.Proofs.DiscoveryOrder
import LineLint.Proofs.Following
import LineLint.Proofs.Disks
import LineLint.Proofs.Renaming
import LineLint.Proofs.Utf8

/-! # Checking a file directly

A file can be checked as a part of a directory or by itself. By itself it is checked whatever it is
called and whether or not it is ignored, and under its whole path as its name. Otherwise the two
checks say the same of it, as long as its path leads to it. A walk may note a file whose path leads
nowhere, because it is too long or because a directory on the way may be listed but not entered.
-/

namespace LineLint

theorem Path.intercalate_injective {names others : List String}
    (areNames : ∀ name ∈ names, IsName name) (alsoNames : ∀ name ∈ others, IsName name)
    (same : "/".intercalate names = "/".intercalate others) : names = others := by
  have solid : ∀ {name : String}, IsName name → name ≠ "" ∧ '/' ∉ name.toList :=
    fun isName => ⟨isName.1, isName.2.2.2⟩
  exact Text.intercalate_injective rfl (fun name member => solid (areNames name member))
    (fun name member => solid (alsoNames name member)) same

/-- The files that are discovered have different names. -/
theorem Discovery.eq_of_idBelow_eq {disk : Disk} (notes : disk.NotesFiles) {settings : ScanSettings}
    {root path other : Path} {paths : List Path}
    (discovered : filesBy disk settings root = .ok paths) (member : path ∈ paths)
    (alsoMember : other ∈ paths) (same : other.idBelow root = path.idBelow root) : other = path := by
  obtain rfl | ⟨patterns, noted, walked, rfl⟩ := exists_noted_of_filesBy discovered
  · rw [List.mem_singleton.mp member, List.mem_singleton.mp alsoMember]
  · obtain ⟨names, named, -, -, rfl⟩ := mem_sifted_iff.mp member
    obtain ⟨others, alsoNamed, -, -, rfl⟩ := mem_sifted_iff.mp alsoMember
    obtain ⟨nonempty, areNames⟩ := notes.named walked names named
    obtain ⟨alsoNonempty, alsoNames⟩ := notes.named walked others alsoNamed
    rw [Path.idBelow_joinAll root nonempty areNames,
      Path.idBelow_joinAll root alsoNonempty alsoNames] at same
    -- Names hold no slash, so the joined names tell them apart.
    rw [Path.intercalate_injective alsoNames areNames same]

/-- Of the files that are discovered, one alone has its name. -/
theorem Discovery.filter_idBelow_filesBy {disk : Disk} (notes : disk.NotesFiles)
    {settings : ScanSettings} {root path : Path} {paths : List Path}
    (discovered : filesBy disk settings root = .ok paths) (member : path ∈ paths) :
    paths.filter (fun other => other.idBelow root == path.idBelow root) = [path] := by
  have alone : ∀ other ∈ paths, (other.idBelow root == path.idBelow root) = (other == path) := by
    intro other alsoMember
    rw [Bool.eq_iff_iff, beq_iff_eq, beq_iff_eq]
    exact ⟨eq_of_idBelow_eq notes discovered member alsoMember, congrArg (Path.idBelow · root)⟩
  have once : paths.count path = 1 := List.count_eq_one_of_mem
    (Path.nodup_of_pairwise_before (pairwise_filesBy notes discovered)) member
  rw [List.filter_congr alone, List.filter_beq, once]
  rfl

namespace Workspace

variable {read : Reader} {options : CheckOptions} {settings : Settings} {set : RuleSet}
  {paths : List Path}

/-- What a run says about the files of one name is the run over these files. -/
theorem about_runBy (id : String) : (runBy read options settings set paths).about id =
    runBy read options settings set
      (paths.filter fun path => path.idBelow (options.root settings) == id) := by
  rw [runBy, runBy, Analyzer.run_eq, Analyzer.run_eq, Analyzer.about_summaryOf, List.filter_map]
  congr 2
  apply List.filter_congr
  intro path _
  rw [Function.comp_apply, Discovery.loadBy]
  cases read path <;> rfl

/-- A run with the rules of a check says the same of a file that is checked directly, under its own
path as its name. -/
theorem runBy_direct (built : options.ruleSet settings = .ok set) (path : Path) :
    runBy read { options with path := some path } settings set [path] =
      (runBy read options settings set [path]).inFile path.text := by
  obtain ⟨unit, -, rfl⟩ := CheckOptions.exists_unit_of_ruleSet built
  have ignores : ∀ active ∈
      (Analyzer.build (options.select (.ofIndentUnit unit)).rules settings).active,
      active.rule.IgnoresNames := by
    intro active member
    have chosen := CheckOptions.mem_select_iff.mp (Analyzer.mem_of_mem_build member)
    exact (RuleSet.builtIn_of_mem chosen.1).ignoresNames
  have source : Discovery.loadBy read path path =
      (Discovery.loadBy read (options.root settings) path).inFile path.text := by
    rw [Discovery.loadBy, Discovery.loadBy, Path.idBelow_self]
    cases read path <;> rfl
  rw [runBy, runBy, Analyzer.run_eq, Analyzer.run_eq, ← Analyzer.summaryOf_inFile ignores]
  change Analyzer.summaryOf _ [Discovery.loadBy read path path] = _
  rw [source]
  rfl

/-- What a run tells of one file under a name: a report on what a reader gives, or the reason why it
gives nothing. -/
def told (read : Reader) (settings : Settings) (set : RuleSet) (path : Path) (id : String) :
    Summary :=
  match read path with
  | .ok octets => ⟨[(Analyzer.build set.rules settings).analyzeSource id
      (Discovery.decode octets)], []⟩
  | .error reason => ⟨[], [⟨id, reason⟩]⟩

/-- A run over one file depends on that file and its id alone. -/
theorem runBy_singleton (path : Path) : runBy read options settings set [path] =
    told read settings set path (path.idBelow (options.root settings)) := by
  rw [runBy, Analyzer.run_eq, told]
  change Analyzer.summaryOf _ [Discovery.loadBy read _ path] = _
  rw [Discovery.loadBy]
  cases read path <;> rfl

/-- The run over a file that is checked directly tells of it under its whole path. -/
theorem runBy_self (path : Path) :
    runBy read { options with path := some path } settings set [path] =
      told read settings set path path.text :=
  (runBy_singleton path).trans (congrArg (told read settings set path) path.idBelow_self)

variable {w : Workspace} {disk : Disk} {root config path : Path}

section Direct

variable (loaded : (SettingsLocation.explicit config).load w = .ok settings)
include loaded

/-- The direct check of a file prints the run over it. -/
theorem checkBy_direct (built : options.ruleSet settings = .ok set)
    {patterns : List (List Exclude.Token)}
    (valid : Discovery.excludes (options.apply settings).scan.exclude = .ok patterns)
    (leads : disk.leadsTo path = true) (isFile : disk.isFile path = true) :
    let direct : CheckOptions := { options with path := some path }
    w.checkBy disk direct (some config) =
      let one := runBy disk.read direct settings set [path]
      .ok (.ofSummary one settings.threshold, one.render options.format) := by
  intro direct
  have given : (SettingsLocation.find w direct.project (some config)).load w = .ok settings := loaded
  have alsoBuilt : direct.ruleSet settings = .ok set := built
  have alone : Discovery.filesBy disk (direct.apply settings).scan path = .ok [path] :=
    Discovery.filesBy_of_isFile isFile valid
  exact checkBy_of_run given leads alsoBuilt alone

/-- The direct check of a path that leads nowhere prints nothing. -/
theorem checkBy_astray (astray : disk.leadsTo path = false) :
    w.checkBy disk { options with path := some path } (some config) = .ok (.error, "") := by
  rw [checkBy_eq]
  change (SettingsLocation.load w (.explicit config)).mapError _ >>= _ = _
  rw [loaded]
  exact if_neg (ne_true_of_eq_false astray)

end Direct

/-- In a workspace, the path to a file below a directory leads to this file if the system takes the
path, and nowhere otherwise. -/
theorem disk_joinAll {place : Place} {names : List String}
    (leads : w.tree.locate .target w.current root = .ok place)
    (file : w.tree.HasFile place names) :
    let path := root.joinAll names
    (FileTree.Accepts path names → w.disk.leadsTo path = true ∧ w.disk.isFile path = true ∧
      ∃ octets, w.tree.at? (place ++ names) = some (.file octets) ∧
        w.disk.read path = .ok octets) ∧
    (¬ FileTree.Accepts path names → w.disk.leadsTo path = false ∧
      ∃ reason, w.disk.read path = .error reason) := by
  intro path
  obtain ⟨reachedIf, unreachedIf⟩ := FileTree.locate_joinAll leads file
  constructor
  · intro accepted
    have located := reachedIf accepted
    obtain ⟨-, octets, content⟩ := FileTree.hasFile_iff.mp file
    have read_eq : w.read path = .ok octets := FileTree.read_of_locate located content
    exact ⟨FileTree.leadsTo_of_locate located, FileTree.isFileAt_of_locate located content, octets,
      content, congrArg (Except.mapError FileError.message) read_eq⟩
  · intro refused
    obtain ⟨error, located⟩ := unreachedIf refused
    have read_eq : w.read path = .error error := FileTree.read_of_error located
    exact ⟨FileTree.leadsTo_of_error located, error.message,
      congrArg (Except.mapError FileError.message) read_eq⟩

/-- Where the check of a directory gets as far as printing, a path can be checked directly with the same
settings and options. If it leads to a file, the direct check is about this file alone, whether the
directory discovers it or not, and says of it what the check of the directory does if that discovers
it: it has the same findings in the same order, but for the name of the file, or it cannot be read
for the same reason. If it leads nowhere, the direct check prints nothing, while the check of the
directory tells of what it discovers all the same. This is so whatever the disk answers, as long as
its walks note each file once. The disk of a workspace is one of these, and there it depends on the
path alone whether it leads to a file that the directory has. -/
theorem direct_check_agrees (notes : disk.NotesFiles) (asRoot : options.root settings = root)
    (loaded : (SettingsLocation.explicit config).load w = .ok settings)
    (leads : disk.leadsTo root = true) (built : options.ruleSet settings = .ok set)
    (discovered : Discovery.filesBy disk (options.apply settings).scan root = .ok paths) :
    let whole := runBy disk.read options settings set paths
    w.checkBy disk options (some config) =
        .ok (.ofSummary whole settings.threshold, whole.render options.format) ∧
      (∀ path ∈ paths, whole.about (path.idBelow root) =
        told disk.read settings set path (path.idBelow root)) ∧
      (∀ path : Path,
        let direct : CheckOptions := { options with path := some path }
        let one := told disk.read settings set path path.text
        (disk.leadsTo path = true → disk.isFile path = true →
          w.checkBy disk direct (some config) =
              .ok (.ofSummary one settings.threshold, one.render options.format) ∧
            (path ∈ paths → one = (whole.about (path.idBelow root)).inFile path.text)) ∧
          (disk.leadsTo path = false →
            w.checkBy disk direct (some config) = .ok (.error, ""))) ∧
      w.disk.NotesFiles ∧
      ∀ place names, w.tree.locate .target w.current root = .ok place →
        w.tree.HasFile place names →
        let path := root.joinAll names
        (FileTree.Accepts path names → w.disk.leadsTo path = true ∧ w.disk.isFile path = true ∧
          ∃ octets, w.tree.at? (place ++ names) = some (.file octets) ∧
            w.disk.read path = .ok octets) ∧
        (¬ FileTree.Accepts path names → w.disk.leadsTo path = false ∧
          ∃ reason, w.disk.read path = .error reason) := by
  intro whole
  subst asRoot
  have about : ∀ path ∈ paths, whole.about (path.idBelow (options.root settings)) =
      runBy disk.read options settings set [path] := by
    intro path member
    rw [about_runBy, Discovery.filter_idBelow_filesBy notes discovered member]
  obtain ⟨patterns, valid⟩ := Discovery.exists_excludes_of_filesBy discovered
  refine ⟨checkBy_of_run loaded leads built discovered, ?_, ?_, Discovery.notesFiles_disk w,
    fun place names => disk_joinAll⟩
  · intro path member
    rw [about path member, runBy_singleton]
  · intro path direct one
    have isOne : runBy disk.read direct settings set [path] = one := runBy_self path
    refine ⟨fun leads isFile => ⟨?_, fun member => ?_⟩, checkBy_astray loaded⟩
    · rw [checkBy_direct loaded built valid leads isFile, isOne]
    · rw [about path member, ← isOne]
      exact runBy_direct built path

end Workspace

/-- The text of settings that leave nothing out: the root, the extensions, no exclude patterns, and no
regard to ignore files. -/
def DirectCheck.settingsText : String := "analyzer = [\".\", [\"cs\"], [], false]"

/-- Settings that leave nothing out, and a file of one line. -/
def FileTree.loose : FileTree where
  entries := [(["s.toml"],
      .file (Text.Utf8.encode DirectCheck.settingsText.toList)),
    (["a.cs"], .file [0x20, 0x66, 0x28])]
  places_nodup := by decide
  named := by
    intro place entry member
    fin_cases member <;> decide
  inDirectory := by
    intro place entry member
    fin_cases member <;> exact .inl rfl

namespace DirectCheck

/-- The working directory, with slashes behind its name. -/
def dotted (slashes : Nat) : Path := ⟨String.ofList ('.' :: List.replicate slashes '/')⟩

def settings : Settings := { scan := { exclude := [], respectGitignore := false } }

def workspace : Workspace := { tree := .loose, current := [] }

theorem load_settings : (SettingsLocation.explicit ⟨"s.toml"⟩).load workspace = .ok settings := by
  have cut : (Path.mk "s.toml").steps = [.into "s.toml"] := by decide
  have located : workspace.tree.locate .target workspace.current ⟨"s.toml"⟩ = .ok ["s.toml"] := by
    rw [FileTree.locate_of_steps (by decide) (by decide) (by decide) cut]
    simp only [FileTree.follow]
    rfl
  have read := FileTree.read_of_locate located rfl
  have parsed : Settings.ofText? settingsText.toList = some settings := by decide +kernel
  change SettingsLocation.loadFile workspace ⟨"s.toml"⟩ = _
  simp only [SettingsLocation.loadFile, Workspace.read, read, Text.Utf8.decode?_encode, parsed]

theorem split_replicate (count : Nat) :
    Text.split '/' (List.replicate count '/') = List.replicate (count + 1) [] := by
  induction count with
  | zero => rfl
  | succ count ih =>
    rw [List.replicate_succ, Text.split, if_pos rfl, ih]
    rfl

theorem split_dotted (slashes : Nat) :
    Text.split '/' (dotted slashes).text.toList = ['.'] :: List.replicate slashes [] := by
  have text : (dotted slashes).text.toList = '.' :: List.replicate slashes '/' := by
    simp [dotted]
  rw [text, Text.split, if_neg (by decide), split_replicate]
  rfl

theorem getLast?_dotted (slashes : Nat) :
    (dotted (slashes + 1)).text.toList.getLast? = some '/' :=
  List.getLast?_eq_some_iff.mpr
    ⟨'.' :: List.replicate slashes '/', by simp [dotted, List.replicate_succ']⟩

theorem steps_dotted (slashes : Nat) : (dotted (slashes + 1)).steps = [.stay, .slash] := by
  have rest : (List.replicate (slashes + 1) []).filterMap Step.ofPiece? = [] := by
    simp [Step.ofPiece?]
  rw [Path.steps, if_pos (getLast?_dotted slashes), split_dotted, List.filterMap_cons, rest]
  rfl

theorem components_dotted (slashes : Nat) : (dotted slashes).components = [.current] := by
  have relative : (dotted slashes).isAbsolute = false := by
    simp [Path.isAbsolute, dotted]
  have rest : (List.replicate slashes []).filterMap Component.ofPiece? = [] := by
    simp [Component.ofPiece?]
  rw [Path.components, relative, split_dotted, List.filterMap_cons, rest]
  rfl

theorem utf8ByteSize_dotted (slashes : Nat) :
    (dotted slashes).text.utf8ByteSize = slashes + 1 := by
  have point : Char.utf8Size '.' = 1 := by decide
  have slash : Char.utf8Size '/' = 1 := by decide
  have size : (String.ofList (List.replicate slashes '/')).utf8ByteSize = slashes := by
    induction slashes with
    | zero => rfl
    | succ slashes ih =>
      rw [List.replicate_succ, String.ofList_cons, String.utf8ByteSize_append, ih,
        String.utf8ByteSize_singleton, slash, Nat.add_comm]
  rw [dotted, String.ofList_cons, String.utf8ByteSize_append, size, String.utf8ByteSize_singleton,
    point, Nat.add_comm]

/-- Slashes lead nowhere new, as long as there are not too many of them. -/
theorem locate_dotted {slashes : Nat} (short : slashes + 2 ≤ FileTree.pathLimit) :
    workspace.tree.locate .target workspace.current (dotted (slashes + 1)) = .ok [] := by
  have noZero : '\x00' ∉ (dotted (slashes + 1)).text.toList := by simp [dotted]
  have nonempty : (dotted (slashes + 1)).text ≠ "" := by
    intro empty
    have size := utf8ByteSize_dotted (slashes + 1)
    rw [empty] at size
    cases size
  have origin : (dotted (slashes + 1)).origin workspace.current = [] := ite_self []
  rw [FileTree.locate_of_steps noZero nonempty (by rwa [utf8ByteSize_dotted])
    (steps_dotted slashes), origin]
  simp only [FileTree.follow]
  rfl

theorem hasFile_line : workspace.tree.HasFile [] ["a.cs"] :=
  FileTree.hasFile_iff.mpr ⟨by simp, _, rfl⟩

/-- The file of one line is all that is discovered, however many slashes stand in front of it. -/
theorem files_dotted {slashes : Nat} (short : slashes + 2 ≤ FileTree.pathLimit) :
    Discovery.files workspace settings.scan (dotted (slashes + 1)) =
      .ok [(dotted (slashes + 1)).joinAll ["a.cs"]] := by
  have searched : (dotted (slashes + 1)).components ≠ Discovery.standardInput.components := by
    rw [components_dotted]
    decide
  rw [Discovery.files_of_isDirectory rfl rfl (locate_dotted short) (by decide), if_neg searched]
  refine congrArg _ (Discovery.eq_scan_of_mem_iff (List.pairwise_singleton _ _) fun path => ?_).symm
  rw [List.mem_singleton]
  constructor
  · rintro rfl
    exact ⟨_, ⟨hasFile_line, ⟨_, rfl, by decide⟩, rfl, Discovery.reaches_nothing ..⟩, rfl⟩
  · rintro ⟨names, ⟨file, ⟨name, last, extension⟩, -, -⟩, rfl⟩
    have listed : Discovery.filesBelow workspace.tree [] = [["s.toml"], ["a.cs"]] := by rfl
    have member := Discovery.mem_filesBelow_iff.mpr file
    rw [listed] at member
    fin_cases member
    · obtain rfl : "s.toml" = name := Option.some.inj last
      have other : Discovery.hasExtension settings.scan.extensions "s.toml" = false := by decide
      exact absurd (extension.symm.trans other) (by decide)
    · rfl

/-- The check of a directory with the selected rules and nothing else asked for. -/
def options (path : Path) : CheckOptions := { path := some path }

theorem built (path : Path) : (options path).ruleSet settings = .ok .default := rfl

/-- A disk with a directory that may be listed but not entered. A walk notes the file in it, and no path
through it leads anywhere. -/
def closed : Disk where
  leadsTo path := path == dotted 1
  isFile _ := false
  walk _ _ := .ok [["d", "a.cs"]]
  read _ := .error "Permission denied (os error 13)"

theorem notesFiles_closed : closed.NotesFiles where
  nodup walked := by
    obtain rfl := Except.ok.inj walked
    exact List.nodup_singleton _
  named walked := by
    obtain rfl := Except.ok.inj walked
    decide

/-- The scan discovers a file that no path leads to. -/
theorem filesBy_closed :
    Discovery.filesBy closed settings.scan (dotted 1) = .ok [⟨"./d/a.cs"⟩] := by
  have kept : [["d", "a.cs"]].filter (fun names =>
      (names.getLast?.any fun name => Discovery.hasExtension settings.scan.extensions name) &&
        !Discovery.isExcluded [] (dotted 1) ((dotted 1).joinAll names)) = [["d", "a.cs"]] := by
    decide
  have valid : Discovery.excludes settings.scan.exclude = .ok [] := rfl
  rw [Discovery.filesBy_of_excludes valid, if_neg (by decide)]
  change Except.ok (Discovery.sifted settings.scan [] (dotted 1) [["d", "a.cs"]]) = _
  rw [Discovery.sifted, kept, List.map_singleton, List.mergeSort_singleton]
  exact congrArg Except.ok (by decide)

/-- The direct check of the line agrees with its part of the check of the directory. A file in a
directory that may not be entered is listed in the check of the directory above it, and its direct
check prints nothing. -/
theorem direct_check_agrees_on_line :
    let check := options (dotted 1)
    let line : Path := ⟨"./a.cs"⟩
    let inside : Path := ⟨"./d/a.cs"⟩
    check.root settings = dotted 1 ∧
      (SettingsLocation.explicit ⟨"s.toml"⟩).load workspace = .ok settings ∧
      check.ruleSet settings = .ok .default ∧
      (workspace.disk.NotesFiles ∧ workspace.disk.leadsTo (dotted 1) = true ∧
        Discovery.filesBy workspace.disk (check.apply settings).scan (dotted 1) = .ok [line] ∧
        FileTree.Accepts line ["a.cs"] ∧ workspace.disk.leadsTo line = true ∧
        workspace.disk.isFile line = true ∧
        Workspace.told workspace.disk.read settings .default line "./a.cs" =
          ((Workspace.runBy workspace.disk.read check settings .default [line]).about "a.cs").inFile
            "./a.cs") ∧
      (closed.NotesFiles ∧ closed.leadsTo (dotted 1) = true ∧
        Discovery.filesBy closed (check.apply settings).scan (dotted 1) = .ok [inside] ∧
        (Workspace.runBy closed.read check settings .default [inside]).about "d/a.cs" =
          ⟨[], [⟨"d/a.cs", "Permission denied (os error 13)"⟩]⟩ ∧
        closed.leadsTo inside = false ∧
        workspace.checkBy closed (options inside) (some ⟨"s.toml"⟩) = .ok (.error, "")) := by
  intro check line inside
  have asRoot : check.root settings = dotted 1 := rfl
  have notes := Discovery.notesFiles_disk workspace
  have located : workspace.tree.locate .target workspace.current (dotted 1) = .ok [] :=
    locate_dotted (by decide)
  have leads : workspace.disk.leadsTo (dotted 1) = true := FileTree.leadsTo_of_locate located
  have discovered : Discovery.filesBy workspace.disk (check.apply settings).scan (dotted 1) =
      .ok [line] := files_dotted (by decide)
  have accepted : FileTree.Accepts line ["a.cs"] := ⟨by decide, by decide, by decide⟩
  have closedLeads : closed.leadsTo (dotted 1) = true := by decide
  have astray : closed.leadsTo inside = false := by decide
  obtain ⟨-, -, agrees, -, onTree⟩ :=
    Workspace.direct_check_agrees notes asRoot load_settings leads (built _) discovered
  obtain ⟨-, lists, alone, -⟩ := Workspace.direct_check_agrees notesFiles_closed asRoot load_settings
    closedLeads (built _) filesBy_closed
  obtain ⟨lineLeads, isFile, -⟩ := (onTree [] ["a.cs"] located hasFile_line).1 accepted
  obtain ⟨-, same⟩ := (agrees line).1 lineLeads isFile
  have same := same (List.mem_singleton_self _)
  have listed := lists inside (List.mem_singleton_self _)
  have named : line.idBelow (dotted 1) = "a.cs" := by decide
  have alsoNamed : inside.idBelow (dotted 1) = "d/a.cs" := by decide
  rw [named] at same
  rw [alsoNamed] at listed
  exact ⟨asRoot, load_settings, built _,
    ⟨notes, leads, discovered, accepted, lineLeads, isFile, same⟩,
    notesFiles_closed, closedLeads, filesBy_closed, listed, astray, (alone inside).2 astray⟩

theorem text_below_dotted (slashes : Nat) :
    ((dotted (slashes + 1)).joinAll ["a.cs"]).text = (dotted (slashes + 1)).text ++ "a.cs" := by
  have slash : (dotted (slashes + 1)).text.toList.getLast? = some '/' :=
    getLast?_dotted slashes
  change ((dotted (slashes + 1)).join "a.cs").text = _
  rw [Path.join, if_neg (by decide), if_pos (.inr slash)]

/-- With enough slashes in front of it, the path of the line is too long. -/
theorem locate_long {slashes : Nat} (long : FileTree.pathLimit < slashes + 6) :
    workspace.tree.locate .target workspace.current ((dotted (slashes + 1)).joinAll ["a.cs"]) =
      .error .nameTooLong := by
  have size : ((dotted (slashes + 1)).text ++ "a.cs").utf8ByteSize = slashes + 6 := by
    rw [String.utf8ByteSize_append, utf8ByteSize_dotted]
    rfl
  rw [FileTree.locate, text_below_dotted, size, if_neg, if_neg, if_pos long]
  · intro empty
    rw [empty] at size
    cases size
  · simp [dotted]

/-- The check of a directory discovers a file behind a path that is too long and cannot read it. The
direct check of the file prints nothing. -/
theorem check_long {slashes : Nat} (short : slashes + 2 ≤ FileTree.pathLimit)
    (long : FileTree.pathLimit < slashes + 6) :
    let root := dotted (slashes + 1)
    let path := root.joinAll ["a.cs"]
    Discovery.files workspace ((options root).apply settings).scan root = .ok [path] ∧
      workspace.check (options root) (some ⟨"s.toml"⟩) =
        .ok (.error, Summary.render ⟨[], [⟨"a.cs", "File name too long (os error 36)"⟩]⟩ .text) ∧
      workspace.check (options path) (some ⟨"s.toml"⟩) = .ok (.error, "") := by
  intro root path
  have leads : workspace.tree.locate .target workspace.current root = .ok [] :=
    locate_dotted short
  have discovered : Discovery.files workspace ((options root).apply settings).scan root =
      .ok [path] := files_dotted short
  have located : workspace.tree.locate .target workspace.current path = .error .nameTooLong :=
    locate_long long
  have given : ∀ path, (SettingsLocation.find workspace (options path).project
      (some ⟨"s.toml"⟩)).load workspace = .ok settings := fun _ => load_settings
  refine ⟨discovered, ?_, ?_⟩
  · have unread : workspace.disk.read path = .error "File name too long (os error 36)" := by
      have read : workspace.read path = .error .nameTooLong := FileTree.read_of_error located
      exact congrArg (Except.mapError FileError.message) read
    have named : path.idBelow ((options root).root settings) = "a.cs" :=
      Path.idBelow_joinAll root (by simp) hasFile_line.isName
    have run : Workspace.runBy workspace.disk.read (options root) settings .default [path] =
        ⟨[], [⟨"a.cs", "File name too long (os error 36)"⟩]⟩ := by
      rw [Workspace.runBy_singleton, Workspace.told, unread, named]
    have alsoLeads : workspace.disk.leadsTo root = true := FileTree.leadsTo_of_locate leads
    have printed := Workspace.checkBy_of_run (given root) alsoLeads (built root) discovered
    dsimp only at printed
    rw [Workspace.check, printed, run]
    rfl
  · have astray : workspace.disk.leadsTo path = false := FileTree.leadsTo_of_error located
    have direct : workspace.checkBy workspace.disk { options root with path := some path }
        (some ⟨"s.toml"⟩) = .ok (.error, "") := Workspace.checkBy_astray load_settings astray
    exact direct

/-- Behind the name of the working directory and 4092 slashes, the path of the file is too long for the
system, and the direct check of it prints no summary, not even one that says so. -/
theorem direct_check_of_long_path :
    let root := dotted (4091 + 1)
    let path := root.joinAll ["a.cs"]
    Discovery.files workspace ((options root).apply settings).scan root = .ok [path] ∧
      workspace.check (options root) (some ⟨"s.toml"⟩) =
        .ok (.error, Summary.render ⟨[], [⟨"a.cs", "File name too long (os error 36)"⟩]⟩ .text) ∧
      ¬ ∃ status one, workspace.check (options path) (some ⟨"s.toml"⟩) =
        .ok (status, Summary.render one .text) := by
  obtain ⟨discovered, whole, nothing⟩ := @check_long 4091 (by decide) (by decide)
  refine ⟨discovered, whole, ?_⟩
  rintro ⟨status, one, printed⟩
  rw [nothing] at printed
  obtain ⟨-, empty⟩ := Prod.mk.inj (Except.ok.inj printed)
  exact Summary.render_ne_empty one .text empty.symm

end DirectCheck

end LineLint
