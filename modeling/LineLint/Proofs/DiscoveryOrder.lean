import LineLint.Proofs.ExitStatus
import LineLint.Proofs.Listings
import LineLint.Proofs.ScanFilters
import LineLint.Proofs.Walks

/-! # The order of discovery

The files that are discovered come in the strict order of their paths, whatever the order is in which
directories list what they hold and in which a walk takes it. So two checks of one tree print the
same, and the files below a directory stand together, among the files and among the reports.
-/

namespace LineLint

/-- The walks of a disk note files below the root by the names that lead there, each file once. -/
structure Disk.NotesFiles (disk : Disk) : Prop where
  nodup : ∀ {respectGitignore root noted}, disk.walk respectGitignore root = .ok noted → noted.Nodup
  named : ∀ {respectGitignore root noted}, disk.walk respectGitignore root = .ok noted →
    ∀ names ∈ noted, names ≠ [] ∧ ∀ name ∈ names, IsName name

namespace Discovery

variable {w : Workspace} {settings : ScanSettings} {root : Path} {found : List Path}

/-- Files are discovered in one of two ways: the root is the one file, or what a walk has noted is
sifted. -/
theorem exists_noted_of_filesBy {disk : Disk}
    (discovered : filesBy disk settings root = .ok found) :
    found = [root] ∨ ∃ patterns noted, disk.walk settings.respectGitignore root = .ok noted ∧
      found = sifted settings patterns root noted := by
  obtain ⟨patterns, valid⟩ := exists_excludes_of_filesBy discovered
  rw [filesBy_of_excludes valid] at discovered
  split at discovered
  · exact .inl (Except.ok.inj discovered).symm
  · obtain ⟨noted, walked, rfl⟩ := map_eq_ok_iff.mp discovered
    exact .inr ⟨patterns, noted, walked, rfl⟩

/-- Where a walk notes anything in a workspace, a directory has been scanned. -/
theorem exists_scan_of_files (discovered : files w settings root = .ok found) :
    found = [] ∨ found = [root] ∨ ∃ patterns place,
      found = scan w.tree settings patterns (.inEffect w settings root place) root place := by
  obtain rfl | ⟨patterns, noted, walked, rfl⟩ := exists_noted_of_filesBy discovered
  · exact .inr (.inl rfl)
  · obtain rfl | ⟨place, rfl⟩ := noted_of_walker walked
    · exact .inl sifted_nil
    · exact .inr (.inr ⟨patterns, place, rfl⟩)

/-- The walk of a workspace notes the files below a directory, each once. -/
theorem notesFiles_disk (w : Workspace) : w.disk.NotesFiles := by
  have of_walked : ∀ {respectGitignore root noted},
      w.disk.walk respectGitignore root = .ok noted → noted = [] ∨
        ∃ place, ∃ keep : List String → Bool, noted = (filesBelow w.tree place).filter keep := by
    intro respectGitignore root noted walked
    have walked : w.walker { respectGitignore : ScanSettings }.respectGitignore root = .ok noted :=
      walked
    exact (noted_of_walker walked).imp_right fun ⟨place, filtered⟩ => ⟨place, _, filtered⟩
  constructor
  · intro respectGitignore root noted walked
    obtain rfl | ⟨place, keep, rfl⟩ := of_walked walked
    · exact .nil
    · exact (nodup_filesBelow w.tree place).filter _
  · intro respectGitignore root noted walked names member
    obtain rfl | ⟨place, keep, rfl⟩ := of_walked walked
    · cases member
    · have file := mem_filesBelow_iff.mp (List.mem_of_mem_filter member)
      exact ⟨(FileTree.hasFile_iff.mp file).1, file.isName⟩

/-- Whatever order a disk walks in, the files come out sorted. -/
theorem pairwise_filesBy {disk : Disk} (notes : disk.NotesFiles)
    (discovered : filesBy disk settings root = .ok found) : found.Pairwise Path.Before := by
  obtain rfl | ⟨patterns, noted, walked, rfl⟩ := exists_noted_of_filesBy discovered
  · exact List.pairwise_singleton _ _
  · exact pairwise_sifted (notes.nodup walked) fun names member => (notes.named walked names member).2

theorem pairwise_files (discovered : files w settings root = .ok found) :
    found.Pairwise Path.Before := pairwise_filesBy (notesFiles_disk w) discovered

/-- The files whose names in reports begin with the names of directories stand together. -/
theorem filter_isNamedBelow_together (discovered : files w settings root = .ok found)
    {names : List String} (nonempty : names ≠ []) (areNames : ∀ name ∈ names, IsName name) :
    found.filter (fun path => Path.isNamedBelow (path.idBelow root) names) <:+: found := by
  obtain rfl | rfl | ⟨patterns, place, rfl⟩ := exists_scan_of_files discovered
  · exact List.infix_rfl
  · cases named : Path.isNamedBelow (root.idBelow root) names <;> simp [named]
  · have below : ∀ path ∈ scan w.tree settings patterns (.inEffect w settings root place) root place,
        Path.isNamedBelow (path.idBelow root) names = path.isBelow (root.joinAll names) := by
      intro path member
      obtain ⟨others, isFound, rfl⟩ := mem_scan_iff_isFound.mp member
      have alsoNonempty := (FileTree.hasFile_iff.mp isFound.file).1
      have alsoNames := isFound.file.isName
      rw [Path.idBelow_joinAll root alsoNonempty alsoNames, Bool.eq_iff_iff,
        Path.isNamedBelow_intercalate nonempty alsoNonempty areNames alsoNames,
        Path.isBelow_joinAll_iff root areNames alsoNames]
    rw [List.filter_congr below]
    exact Path.filter_isBelow_together pairwise_scan _

/-- The reports on the files below a directory stand together among those that are printed. -/
theorem filter_reports_together (discovered : files w settings root = .ok found) (analyzer : Analyzer)
    (keep : Report → Bool) {names : List String} (nonempty : names ≠ [])
    (areNames : ∀ name ∈ names, IsName name) :
    ((analyzer.run (found.map (load w root))).reports.filter keep).filter
        (fun report => Path.isNamedBelow report.file names) <:+:
      (analyzer.run (found.map (load w root))).reports.filter keep := by
  let report? (path : Path) : Option Report :=
    ((w.reader path).toOption.map fun octets =>
      analyzer.analyzeSource (path.idBelow root) (decode octets)).filter keep
  have printed : (analyzer.run (found.map (load w root))).reports.filter keep =
      found.filterMap report? := by
    have reports := reports_run w.reader analyzer root found
    change (analyzer.run (found.map (loadBy w.reader root))).reports.filter keep = _
    rw [reports, List.filter_filterMap]
  have chosen : (found.filterMap report?).filter
        (fun report => Path.isNamedBelow report.file names) =
      (found.filter fun path => Path.isNamedBelow (path.idBelow root) names).filterMap report? := by
    rw [List.filter_filterMap, List.filterMap_filter]
    apply List.filterMap_congr
    intro path _
    have about : ∀ report ∈ report? path, report.file = path.idBelow root := by
      intro report member
      obtain ⟨analyzed, _⟩ := Option.filter_eq_some_iff.mp member
      obtain ⟨octets, _, rfl⟩ := Option.map_eq_some_iff.mp analyzed
      rfl
    cases made : report? path with
    | none => simp
    | some report => simp [Option.filter, about report made]
  rw [printed, chosen]
  exact (filter_isNamedBelow_together discovered nonempty areNames).filterMap report?

/-- What is known of the files that are discovered below a root. -/
structure IsCanonical (w : Workspace) (settings : ScanSettings) (root : Path) (found : List Path) :
    Prop where
  ordered : found.Pairwise Path.Before
  /-- They are the same however the entries of the tree are listed. -/
  listed : ∀ tree : FileTree, tree.entries.Perm w.tree.entries →
    files (w.withTree tree) settings root = .ok found
  /-- Every check ends and prints the same however the entries are listed. -/
  printed : ∀ tree : FileTree, tree.entries.Perm w.tree.entries → ∀ options file,
    (w.withTree tree).check options file = w.check options file
  /-- In a directory that is searched, some walk comes to an end, and what every walk that does has
  noted becomes the same files once it is sifted. -/
  walked : ∀ patterns place, excludes settings.exclude = .ok patterns →
    w.tree.locate .target w.current root = .ok place → w.tree.isDirectory place = true →
    root.components ≠ standardInput.components →
    let Step := Walk.Step w.tree (.inEffect w settings root place) root place
    (∃ noted, Relation.ReflTransGen Step .start ⟨[], noted⟩) ∧
      ∀ noted, Relation.ReflTransGen Step .start ⟨[], noted⟩ →
        found = sifted settings patterns root noted
  /-- The files below any directory stand together. -/
  together : ∀ directory : Path, found.filter (·.isBelow directory) <:+: found
  /-- So do the reports on the files below a directory that names lead to from the root, among all
  the reports of a run or among those that are kept for printing. -/
  reported : ∀ (analyzer : Analyzer) (keep : Report → Bool) (names : List String), names ≠ [] →
    (∀ name ∈ names, IsName name) →
    let reports := (analyzer.run (found.map (load w root))).reports.filter keep
    reports.filter (fun report => Path.isNamedBelow report.file names) <:+: reports

/-- Where files are discovered, their list is in the strict order of paths. It is the same for every
order in which directories list their entries and in which a walk takes what they list, and so is
what a check prints. And the files below a directory stand together in it, and in the reports. -/
theorem isCanonical_of_files (discovered : files w settings root = .ok found) :
    IsCanonical w settings root found where
  ordered := pairwise_files discovered
  listed := fun _ same => (files_withTree same settings root).trans discovered
  printed := fun _ same => Workspace.check_withTree same
  walked := by
    intro patterns place valid leads isDirectory searched
    have top : w.tree.at? place = some .directory := by
      simpa [FileTree.isDirectory] using isDirectory
    obtain ⟨_, scanned⟩ := eq_scan_of_files leads isDirectory searched valid discovered
    exact ⟨exists_walk top, fun noted walk => scanned.trans (scan_eq_of_walk top walk)⟩
  together := Path.filter_isBelow_together (pairwise_files discovered)
  reported := fun analyzer keep _ => filter_reports_together discovered analyzer keep

/-- Without regard to the ignore file, the file in the directory `g` of the grove is found, before
the file `g-b.CS`: as a character the hyphen comes before the slash, but `g` comes before `g-b.CS`. -/
theorem isCanonical_in_grove :
    let found : List Path := [⟨"./g/k.cs"⟩, ⟨"./g-b.CS"⟩, ⟨"./m.kt"⟩]
    files grove (groveSettings false) ⟨"."⟩ = .ok found ∧
      IsCanonical grove (groveSettings false) ⟨"."⟩ found ∧ "./g-b.CS" < "./g/k.cs" := by
  intro found
  have discovered : files grove (groveSettings false) ⟨"."⟩ = .ok found := by
    rw [files_of_messages locate_grove (by decide) (by decide) (groveSettings false) rfl rfl]
    refine congrArg _ (eq_scan_of_mem_iff before_grove fun path => ?_).symm
    simp only [isFound_grove_iff]
    constructor
    · intro member
      fin_cases member
      · exact ⟨["g", "k.cs"], ⟨by decide, reaches_nothing ..⟩, by decide⟩
      · exact ⟨["g-b.CS"], ⟨by decide, reaches_nothing ..⟩, by decide⟩
      · exact ⟨["m.kt"], ⟨by decide, reaches_nothing ..⟩, by decide⟩
    · rintro ⟨names, ⟨member, -⟩, rfl⟩
      fin_cases member
      all_goals decide
  exact ⟨discovered, isCanonical_of_files discovered, by decide⟩

end Discovery

end LineLint
