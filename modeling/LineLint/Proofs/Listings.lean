import LineLint.Check
import LineLint.Proofs.Checking
import LineLint.Proofs.ScanOrder

/-! # Trees listed in another order

Nothing depends on the order in which the entries of a tree are listed: neither what a path leads to,
nor the ignore files that count, nor the files that a scan finds, nor what a check prints.
-/

namespace LineLint

namespace FileTree

variable {a b : FileTree}

/-- Trees with the same entries hold the same at every place. -/
theorem at?_eq_of_perm (same : a.entries.Perm b.entries) : a.at? = b.at? := by
  funext place
  by_cases top : place = []
  · rw [top, at?_nil, at?_nil]
  · refine Option.ext fun entry => ?_
    rw [at?_eq_some_iff top, at?_eq_some_iff top, same.mem_iff]

section Lookup

variable (alike : a.at? = b.at?)
include alike

theorem isDirectory_congr : a.isDirectory = b.isDirectory := by
  funext place
  rw [isDirectory, isDirectory, alike]

/-- Links are followed by what stands at each place, not by the order of the listing. -/
theorem follow_congr (purpose : Purpose) (links : Nat) (place : Place) (steps : List Step) :
    a.follow purpose links place steps = b.follow purpose links place steps := by
  have directory := isDirectory_congr alike
  fun_induction follow a purpose links place steps with
  | case1 => rw [follow_nil]
  | case2 _ _ _ _ outside =>
    rw [follow.eq_def]
    exact (if_pos (directory ▸ outside)).symm
  | case3 _ _ _ inside ih | case4 _ _ _ inside ih | case5 _ _ _ inside ih =>
    rw [follow, if_neg (directory ▸ inside)]
    exact ih
  | case6 _ _ _ inside _ toDirectory =>
    rw [follow, if_neg (directory ▸ inside), if_pos toDirectory]
  | case7 _ _ _ inside _ toFile long =>
    rw [follow, if_neg (directory ▸ inside), if_neg toFile, if_pos long]
  | case8 _ _ _ inside _ toFile short nothing last =>
    rw [follow, if_neg (directory ▸ inside), if_neg toFile, if_neg short, ← alike, nothing]
    exact (if_pos last).symm
  | case9 _ _ _ inside _ toFile short nothing more =>
    rw [follow, if_neg (directory ▸ inside), if_neg toFile, if_neg short, ← alike, nothing]
    exact (if_neg more).symm
  | case10 _ _ _ inside _ toFile short target link last =>
    rw [follow, if_neg (directory ▸ inside), if_neg toFile, if_neg short, ← alike, link]
    exact (if_pos last).symm
  | case11 _ _ inside _ toFile short target link more =>
    rw [follow, if_neg (directory ▸ inside), if_neg toFile, if_neg short, ← alike, link]
    exact (if_neg more).symm
  | case12 _ _ inside _ toFile short target link more links path ih =>
    rw [follow, if_neg (directory ▸ inside), if_neg toFile, if_neg short, ← alike, link]
    exact ih.trans (if_neg more).symm
  | case13 _ _ _ inside _ toFile short entry noLink there ih =>
    rw [follow, if_neg (directory ▸ inside), if_neg toFile, if_neg short, ← alike, there]
    cases entry with
    | link target => exact absurd rfl (noLink target)
    | file | directory => exact ih

theorem resolve_congr (links : Nat) (place : Place) (steps : List Step) :
    a.resolve links place steps = b.resolve links place steps := by
  have directory := isDirectory_congr alike
  fun_induction resolve a links place steps with
  | case1 => rw [resolve_nil]
  | case2 _ _ _ _ outside =>
    rw [resolve.eq_def]
    exact (if_pos (directory ▸ outside)).symm
  | case3 _ _ _ inside ih | case4 _ _ _ inside ih | case5 _ _ _ inside ih =>
    rw [resolve, if_neg (directory ▸ inside)]
    exact ih
  | case6 _ _ _ inside _ long =>
    rw [resolve, if_neg (directory ▸ inside), if_pos long]
  | case7 _ _ _ inside _ short nothing =>
    rw [resolve, if_neg (directory ▸ inside), if_neg short, ← alike, nothing]
  | case8 _ _ inside _ short target link =>
    rw [resolve, if_neg (directory ▸ inside), if_neg short, ← alike, link]
  | case9 _ _ inside _ short target link links path ih =>
    rw [resolve, if_neg (directory ▸ inside), if_neg short, ← alike, link]
    exact ih
  | case10 _ _ _ inside _ short entry noLink there ih =>
    rw [resolve, if_neg (directory ▸ inside), if_neg short, ← alike, there]
    cases entry with
    | link target => exact absurd rfl (noLink target)
    | file | directory => exact ih

theorem locate_congr : a.locate = b.locate := by
  funext purpose start path
  simp only [locate, follow_congr alike]

theorem leadsTo_congr : a.leadsTo = b.leadsTo := by
  funext start path
  rw [leadsTo, leadsTo, locate_congr alike]

theorem isFileAt_congr : a.isFileAt = b.isFileAt := by
  funext start path
  rw [isFileAt, isFileAt, get?, get?, locate_congr alike, alike]

theorem read_congr : a.read = b.read := by
  funext start path
  rw [read, read, locate_congr alike, alike]

theorem hasFile_congr {place : Place} {names : List String} :
    a.HasFile place names ↔ b.HasFile place names := by
  rw [hasFile_iff, hasFile_iff, alike]

end Lookup

end FileTree

def Workspace.withTree (w : Workspace) (tree : FileTree) : Workspace := { w with tree := tree }

namespace Discovery

theorem mem_directoriesBelow_iff {tree : FileTree} {place : Place} {names : List String} :
    names ∈ directoriesBelow tree place ↔
      names ≠ [] ∧ tree.at? (place ++ names) = some .directory := by
  rw [directoriesBelow, List.mem_filterMap]
  constructor
  · rintro ⟨⟨entry, content⟩, listed, found⟩
    cases content with
    | directory =>
      obtain ⟨nonempty, rfl⟩ := namesBelow?_eq_some_iff.mp found
      exact ⟨nonempty, (FileTree.at?_eq_some_iff (by simp [nonempty])).mpr listed⟩
    | file => cases found
    | link => cases found
  · rintro ⟨nonempty, directory⟩
    refine ⟨⟨place ++ names, .directory⟩, FileTree.mem_of_at? (by simp [nonempty]) directory, ?_⟩
    exact namesBelow?_eq_some_iff.mpr ⟨nonempty, rfl⟩

/-- What is listed under a name of its own is found under that name. -/
theorem find?_map_names {α : Type} (lists : List (List String)) (f : List String → α)
    (names : List String) :
    ((lists.map fun other => (other, f other)).find? fun entry => entry.1 == names) =
      if names ∈ lists then some (names, f names) else none := by
  induction lists with
  | nil => rfl
  | cons other rest ih =>
    rw [List.map_cons, List.find?_cons, ih]
    by_cases same : other = names
    · simp [same]
    · have other : (other == names) = false := by simpa using same
      simp [other, Ne.symm same]

end Discovery

namespace Workspace

variable {w : Workspace} {tree : FileTree} (same : tree.entries.Perm w.tree.entries)
include same

theorem leadsTo_withTree : (w.withTree tree).leadsTo = w.leadsTo := by
  funext path
  exact congrFun (congrFun (FileTree.leadsTo_congr (FileTree.at?_eq_of_perm same)) _) _

theorem isFile_withTree : (w.withTree tree).isFile = w.isFile := by
  funext path
  exact congrFun (congrFun (FileTree.isFileAt_congr (FileTree.at?_eq_of_perm same)) _) _

theorem read_withTree : (w.withTree tree).read = w.read := by
  funext path
  exact congrFun (congrFun (FileTree.read_congr (FileTree.at?_eq_of_perm same)) _) _

theorem canonical?_withTree : (w.withTree tree).canonical? = w.canonical? := by
  funext path
  rw [canonical?, canonical?]
  simp only [withTree, FileTree.resolve_congr (FileTree.at?_eq_of_perm same)]

end Workspace

section Settings

variable {w : Workspace} {tree : FileTree} (same : tree.entries.Perm w.tree.entries)
include same

theorem SettingsLocation.find_withTree (path : Path) (file : Option Path) :
    find (w.withTree tree) path file = find w path file := by
  have inDirectory : projectFileIn? (w.withTree tree) = projectFileIn? w := by
    funext directory
    rw [projectFileIn?, projectFileIn?, Workspace.isFile_withTree same]
  have project : projectFile? (w.withTree tree) path = projectFile? w path := by
    rw [projectFile?, projectFile?, inDirectory, Workspace.canonical?_withTree same]
  have user : globalFile? (w.withTree tree) = globalFile? w := by
    have directory : globalDirectory? (w.withTree tree) = globalDirectory? w := rfl
    rw [globalFile?, globalFile?, directory, Workspace.isFile_withTree same]
  cases file with
  | some file => rfl
  | none =>
    unfold find
    rw [project, user]

theorem SettingsLocation.load_withTree (location : SettingsLocation) :
    location.load (w.withTree tree) = location.load w := by
  have file : loadFile (w.withTree tree) = loadFile w := by
    funext path
    rw [loadFile, loadFile, Workspace.read_withTree same]
  rw [load, load, file]

end Settings

namespace Discovery

variable {w : Workspace} {tree : FileTree} (same : tree.entries.Perm w.tree.entries)
include same

theorem ignoreFile_withTree : Ignore.File.load (w.withTree tree).tree = Ignore.File.load w.tree := by
  funext start path
  have read : (w.withTree tree).tree.read = w.tree.read :=
    FileTree.read_congr (FileTree.at?_eq_of_perm same)
  rw [Ignore.File.load, Ignore.File.load, read]

theorem ignorePath_withTree : Ignore.Global.path? (w.withTree tree) = Ignore.Global.path? w := by
  have named : Ignore.Global.namedIn? (w.withTree tree) = Ignore.Global.namedIn? w := by
    funext configuration
    rw [Ignore.Global.namedIn?, Ignore.Global.namedIn?, Workspace.read_withTree same]
    rfl
  rw [Ignore.Global.path?, Ignore.Global.path?, Ignore.Global.named?, Ignore.Global.named?, named]
  rfl

theorem layer_withTree (directory : Path) :
    Ignore.Layer.load (w.withTree tree) directory = Ignore.Layer.load w directory := by
  simp only [Ignore.Layer.load, ignoreFile_withTree same]
  rfl

/-- What ignore files say does not depend on the order in which their directories are met. -/
theorem reaches_withTree (root : Path) (place : Place) :
    (Ignoring.load (w.withTree tree) root place).reaches root place =
      (Ignoring.load w root place).reaches root place := by
  have listed : ∀ names, names ∈ [] :: directoriesBelow tree place ↔
      names ∈ [] :: directoriesBelow w.tree place := by
    intro names
    simp only [List.mem_cons, mem_directoriesBelow_iff, FileTree.at?_eq_of_perm same]
  have verdict : (Ignoring.load (w.withTree tree) root place).verdict? root place =
      (Ignoring.load w root place).verdict? root place := by
    funext names isDirectory
    simp only [Ignoring.verdict?, Ignoring.load, find?_map_names, layer_withTree same,
      ignoreFile_withTree same, ignorePath_withTree same]
    simp only [Workspace.withTree, listed]
  funext names
  simp only [Ignoring.reaches, verdict]

/-- Errors of ignore files are reported in the same order for every listing. -/
theorem messages_withTree (settings : ScanSettings) (root : Path) (place : Place) :
    (Ignoring.inEffect (w.withTree tree) settings root place).messages =
      (Ignoring.inEffect w settings root place).messages := by
  rw [Ignoring.inEffect, Ignoring.inEffect]
  split
  · simp only [Ignoring.messages, Ignoring.load, layer_withTree same]
  · rfl

theorem scan_withTree (settings : ScanSettings) (patterns : List (List Exclude.Token))
    (root : Path) (place : Place) :
    scan (w.withTree tree).tree settings patterns (.inEffect (w.withTree tree) settings root place)
        root place =
      scan w.tree settings patterns (.inEffect w settings root place) root place := by
  refine eq_scan_of_mem_iff pairwise_scan fun path => mem_scan_iff_isFound.trans ?_
  have reached : (Ignoring.inEffect (w.withTree tree) settings root place).reaches root place =
      (Ignoring.inEffect w settings root place).reaches root place := by
    rw [Ignoring.inEffect, Ignoring.inEffect]
    cases settings.respectGitignore
    · rfl
    · exact reaches_withTree same root place
  have isFound : ∀ names, IsFound (w.withTree tree).tree settings patterns
      (.inEffect (w.withTree tree) settings root place) root place names ↔
      IsFound w.tree settings patterns (.inEffect w settings root place) root place names := by
    intro names
    have file : tree.HasFile place names ↔ w.tree.HasFile place names :=
      FileTree.hasFile_congr (FileTree.at?_eq_of_perm same)
    constructor
    · rintro ⟨there, extension, kept, reaches⟩
      exact ⟨file.mp there, extension, kept, reached ▸ reaches⟩
    · rintro ⟨there, extension, kept, reaches⟩
      exact ⟨file.mpr there, extension, kept, reached ▸ reaches⟩
  simp only [isFound]

/-- Discovery does not depend on the order in which the system lists entries. -/
theorem files_withTree (settings : ScanSettings) (root : Path) :
    files (w.withTree tree) settings root = files w settings root := by
  have located := FileTree.locate_congr (FileTree.at?_eq_of_perm same)
  have directory := FileTree.isDirectory_congr (FileTree.at?_eq_of_perm same)
  have walked : ∀ patterns,
      ((w.withTree tree).walker settings.respectGitignore root).map (sifted settings patterns root) =
        (w.walker settings.respectGitignore root).map (sifted settings patterns root) := by
    intro patterns
    have locate : (w.withTree tree).tree.locate = w.tree.locate := located
    have isDirectory : (w.withTree tree).tree.isDirectory = w.tree.isDirectory := directory
    have current : (w.withTree tree).current = w.current := rfl
    simp only [map_sifted_walker, locate, isDirectory, current, messages_withTree same,
      scan_withTree same]
  have isFile := Workspace.isFile_withTree same
  cases valid : excludes settings.exclude with
  | error error => rw [files, files, filesBy_of_no_excludes valid, filesBy_of_no_excludes valid]
  | ok patterns =>
    rw [files, files, filesBy_of_excludes valid, filesBy_of_excludes valid]
    change (if (w.withTree tree).isFile root = true then _ else _) =
      if w.isFile root = true then _ else _
    rw [isFile]
    exact if_congr Iff.rfl rfl (walked patterns)

theorem load_withTree (root : Path) : load (w.withTree tree) root = load w root := by
  have reader : (w.withTree tree).reader = w.reader := by
    funext path
    rw [Workspace.reader, Workspace.reader, Workspace.read_withTree same]
  funext path
  rw [load, load, reader]

end Discovery

namespace Workspace

variable {w : Workspace} {tree : FileTree} (same : tree.entries.Perm w.tree.entries)
include same

/-- A check ends and prints the same however the entries of the tree are listed. -/
theorem check_withTree (options : CheckOptions) (file : Option Path) :
    (w.withTree tree).check options file = w.check options file := by
  have summary : (w.withTree tree).summary? options = w.summary? options := by
    funext settings
    rw [summary?_eq, summary?_eq, leadsTo_withTree same]
    simp only [Discovery.files_withTree same, Discovery.load_withTree same]
  rw [check_eq, check_eq, SettingsLocation.find_withTree same, SettingsLocation.load_withTree same,
    summary]

end Workspace

end LineLint
