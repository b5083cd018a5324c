import LineLint.Proofs.ScanOrder

/-! # Filters of a scan

Exclude patterns, extensions and ignore files each take files away from a scan, and none of them
changes what the others do. So more patterns leave out exactly the files that they match, more
extensions bring in exactly the files that have them, and ignore files never bring in a file.
-/

namespace LineLint.Discovery

variable {tree : FileTree} {settings : ScanSettings} {patterns more : List (List Exclude.Token)}
  {ignoring : Ignoring} {root : Path} {place : Place} {names : List String}

theorem hasExtension_append {extensions others : List String} {name : String} :
    hasExtension (extensions ++ others) name =
      (hasExtension extensions name || hasExtension others name) := by
  simp only [hasExtension, List.any_append]
  cases extension? name <;> rfl

theorem isExcluded_append {path : Path} :
    isExcluded (patterns ++ more) root path =
      (isExcluded patterns root path || isExcluded more root path) :=
  List.any_append

namespace IsFound

/-- With more patterns a file is found if it was found before and none of them excludes it. -/
theorem exclude_iff {exclude : List String} :
    IsFound tree { settings with exclude := exclude } (patterns ++ more) ignoring root place names ↔
      IsFound tree settings patterns ignoring root place names ∧
        isExcluded more root (root.joinAll names) = false := by
  constructor
  · rintro ⟨file, extension, kept, reached⟩
    rw [isExcluded_append, Bool.or_eq_false_iff] at kept
    exact ⟨⟨file, extension, kept.1, reached⟩, kept.2⟩
  · rintro ⟨⟨file, extension, kept, reached⟩, also⟩
    refine ⟨file, extension, ?_, reached⟩
    rw [isExcluded_append, kept, also, Bool.or_false]

/-- With more extensions a file is found if one half of them or the other finds it. -/
theorem extensions_iff {extensions others : List String} :
    IsFound tree { settings with extensions := extensions ++ others } patterns ignoring root place
        names ↔
      IsFound tree { settings with extensions := extensions } patterns ignoring root place names ∨
        IsFound tree { settings with extensions := others } patterns ignoring root place names := by
  constructor
  · rintro ⟨file, extension, kept, reached⟩
    simp only [hasExtension_append, Bool.or_eq_true] at extension
    obtain ⟨name, last, here | there⟩ := extension
    · exact .inl ⟨file, ⟨name, last, here⟩, kept, reached⟩
    · exact .inr ⟨file, ⟨name, last, there⟩, kept, reached⟩
  · rintro (⟨file, extension, kept, reached⟩ | ⟨file, extension, kept, reached⟩)
    all_goals
      obtain ⟨name, last, listed⟩ := extension
      refine ⟨file, ⟨name, last, ?_⟩, kept, reached⟩
      simp [hasExtension_append, listed]

/-- What is found although some things are ignored is found where nothing is. -/
theorem of_ignoring {respect : Bool}
    (found : IsFound tree settings patterns ignoring root place names) :
    IsFound tree { settings with respectGitignore := respect } patterns .nothing root place names :=
  ⟨found.file, found.extension, found.kept, reaches_nothing root place names⟩

end IsFound

/-- More patterns take away the files that they exclude. -/
theorem scan_exclude {exclude : List String} :
    scan tree { settings with exclude := exclude } (patterns ++ more) ignoring root place =
      (scan tree settings patterns ignoring root place).filter
        fun path => !isExcluded more root path := by
  refine (eq_scan_of_mem_iff (pairwise_scan.filter _) fun path => ?_).symm
  simp only [List.mem_filter, mem_scan_iff_isFound, Bool.not_eq_true']
  constructor
  · rintro ⟨⟨names, isFound, rfl⟩, kept⟩
    exact ⟨names, IsFound.exclude_iff.mpr ⟨isFound, kept⟩, rfl⟩
  · rintro ⟨names, isFound, rfl⟩
    obtain ⟨isFound, kept⟩ := IsFound.exclude_iff.mp isFound
    exact ⟨⟨names, isFound, rfl⟩, kept⟩

theorem mem_scan_extensions_iff {extensions others : List String} {path : Path} :
    path ∈ scan tree { settings with extensions := extensions ++ others } patterns ignoring root
        place ↔
      path ∈ scan tree { settings with extensions := extensions } patterns ignoring root place ∨
        path ∈ scan tree { settings with extensions := others } patterns ignoring root place := by
  simp only [mem_scan_iff_isFound]
  constructor
  · rintro ⟨names, isFound, rfl⟩
    exact (IsFound.extensions_iff.mp isFound).imp (⟨names, ·, rfl⟩) (⟨names, ·, rfl⟩)
  · rintro (⟨names, isFound, rfl⟩ | ⟨names, isFound, rfl⟩)
    · exact ⟨names, IsFound.extensions_iff.mpr (.inl isFound), rfl⟩
    · exact ⟨names, IsFound.extensions_iff.mpr (.inr isFound), rfl⟩

/-- Ignore files only take files away. -/
theorem scan_sublist_nothing {respect : Bool} :
    (scan tree settings patterns ignoring root place).Sublist
      (scan tree { settings with respectGitignore := respect } patterns .nothing root place) := by
  apply Path.sublist_of_subset pairwise_scan pairwise_scan
  intro path member
  obtain ⟨names, isFound, rfl⟩ := mem_scan_iff_isFound.mp member
  exact mem_scan_iff_isFound.mpr ⟨names, isFound.of_ignoring, rfl⟩

variable {w : Workspace} {found : List Path}

theorem exists_excludes_of_filesBy {disk : Disk}
    (discovered : filesBy disk settings root = .ok found) :
    ∃ patterns, excludes settings.exclude = .ok patterns := by
  cases valid : excludes settings.exclude with
  | ok patterns => exact ⟨patterns, rfl⟩
  | error error =>
    rw [filesBy, valid] at discovered
    cases discovered

theorem exists_excludes_of_files (discovered : files w settings root = .ok found) :
    ∃ patterns, excludes settings.exclude = .ok patterns := exists_excludes_of_filesBy discovered

section Directory

variable (leads : w.tree.locate .target w.current root = .ok place)
  (isDirectory : w.tree.isDirectory place = true)
include leads isDirectory

theorem files_of_input (settings : ScanSettings)
    (input : root.components = standardInput.components)
    (valid : excludes settings.exclude = .ok patterns) : files w settings root = .ok [] := by
  rw [files_of_locate valid leads isDirectory, if_pos input]

variable (searched : root.components ≠ standardInput.components)
include searched

theorem files_of_messages (settings : ScanSettings)
    (valid : excludes settings.exclude = .ok patterns)
    (silent : (Ignoring.inEffect w settings root place).messages = []) :
    files w settings root =
      .ok (scan w.tree settings patterns (.inEffect w settings root place) root place) := by
  rw [files_of_locate valid leads isDirectory, if_neg searched, silent]

/-- A directory in which files are found has been scanned. -/
theorem eq_scan_of_files (valid : excludes settings.exclude = .ok patterns)
    (discovered : files w settings root = .ok found) :
    (Ignoring.inEffect w settings root place).messages = [] ∧
      found = scan w.tree settings patterns (.inEffect w settings root place) root place := by
  rw [files_of_locate valid leads isDirectory, if_neg searched] at discovered
  split at discovered
  · rename_i silent
    exact ⟨silent, (Except.ok.inj discovered).symm⟩
  · cases discovered

end Directory

/-- What is found in a directory are files below it. -/
theorem exists_names_of_files (leads : w.tree.locate .target w.current root = .ok place)
    (isDirectory : w.tree.isDirectory place = true)
    (discovered : files w settings root = .ok found) {path : Path} (member : path ∈ found) :
    ∃ names, w.tree.HasFile place names ∧ path = root.joinAll names := by
  obtain ⟨patterns, valid⟩ := exists_excludes_of_files discovered
  by_cases input : root.components = standardInput.components
  · rw [files_of_input leads isDirectory settings input valid] at discovered
    cases discovered
    cases member
  · obtain ⟨-, rfl⟩ := eq_scan_of_files leads isDirectory input valid discovered
    obtain ⟨names, isFound, rfl⟩ := mem_scan_iff_isFound.mp member
    exact ⟨names, isFound.file, rfl⟩

/-- Where a directory can be searched, it can be searched with more exclude patterns, with other
extensions, and without regard to ignore files. The patterns take away the files whose names they
match, and no others. What is found with two lists of extensions together is what is found with one
of them or the other. And what is found with regard to ignore files is found without it. In each case
the files that remain keep their order. -/
theorem filters_compose (leads : w.tree.locate .target w.current root = .ok place)
    (isDirectory : w.tree.isDirectory place = true)
    (discovered : files w settings root = .ok found) :
    (∀ exclude patterns, excludes exclude = .ok patterns →
      files w { settings with exclude := settings.exclude ++ exclude } root =
        .ok (found.filter fun path => !isExcluded patterns root path)) ∧
      (∀ extensions, ∃ others both,
        files w { settings with extensions := extensions } root = .ok others ∧
          files w { settings with extensions := settings.extensions ++ extensions } root =
            .ok both ∧
          both.Nodup ∧ (∀ path, path ∈ both ↔ path ∈ found ∨ path ∈ others) ∧
          found.Sublist both ∧ others.Sublist both) ∧
      ∃ all, files w { settings with respectGitignore := false } root = .ok all ∧
        found.Sublist all := by
  obtain ⟨patterns, valid⟩ := exists_excludes_of_files discovered
  by_cases input : root.components = standardInput.components
  · have nothing : ∀ settings patterns, excludes settings.exclude = .ok patterns →
        files w settings root = .ok [] :=
      fun settings _ => files_of_input leads isDirectory settings input
    obtain rfl : [] = found := Except.ok.inj ((nothing _ _ valid).symm.trans discovered)
    refine ⟨?_, ?_, [], nothing _ _ valid, .refl _⟩
    · intro exclude more alsoValid
      exact nothing _ _ (excludes_append valid alsoValid)
    · intro extensions
      exact ⟨[], [], nothing _ _ valid, nothing _ _ valid, .nil, by simp, .refl _, .refl _⟩
  · obtain ⟨silent, rfl⟩ := eq_scan_of_files leads isDirectory input valid discovered
    have searched : ∀ settings patterns, excludes settings.exclude = .ok patterns →
        (Ignoring.inEffect w settings root place).messages = [] →
          files w settings root =
            .ok (scan w.tree settings patterns (.inEffect w settings root place) root place) :=
      fun settings _ => files_of_messages leads isDirectory input settings
    refine ⟨?_, ?_, ?_⟩
    · intro exclude more alsoValid
      let narrowed : ScanSettings := { settings with exclude := settings.exclude ++ exclude }
      rw [searched narrowed _ (excludes_append valid alsoValid) silent]
      exact congrArg _ scan_exclude
    · intro extensions
      let separately : ScanSettings := { settings with extensions := extensions }
      let together : ScanSettings :=
        { settings with extensions := settings.extensions ++ extensions }
      refine ⟨_, _, searched separately _ valid silent, searched together _ valid silent,
        Path.nodup_of_pairwise_before pairwise_scan, fun _ => mem_scan_extensions_iff, ?_, ?_⟩
      · exact Path.sublist_of_subset pairwise_scan pairwise_scan fun path member =>
          mem_scan_extensions_iff.mpr (.inl member)
      · exact Path.sublist_of_subset pairwise_scan pairwise_scan fun path member =>
          mem_scan_extensions_iff.mpr (.inr member)
    · let regardless : ScanSettings := { settings with respectGitignore := false }
      exact ⟨_, searched regardless _ valid rfl, scan_sublist_nothing⟩

/-- A directory `g` with a file in it, which the ignore file beside it leaves out, and two files. -/
def grove : Workspace where
  tree :=
    { entries := [([".ignore"], .file [0x67, 0x2F]), (["m.kt"], .file []), (["g-b.CS"], .file []),
        (["g"], .directory), (["g", "k.cs"], .file [])]
      places_nodup := by decide
      named := by
        intro place entry member
        fin_cases member <;> decide
      inDirectory := by
        intro place entry member
        fin_cases member <;> decide }
  current := []

/-- The pattern `g/`. -/
def directoryG : Ignore.Pattern := ⟨[.leading, .literal 'g'], .ignored, true⟩

theorem ofOctets_grove : Ignore.File.ofOctets [0x67, 0x2F] = ⟨[directoryG], []⟩ := by
  have lines : Ignore.File.octetLines [0x67, 0x2F] = [[0x67, 0x2F]] := by decide
  have decoded : Text.Utf8.decode? [0x67, 0x2F] = some ['g', '/'] := by decide +kernel
  have trimmed : Ignore.trimEnd ['g', '/'] = ['g', '/'] := by decide
  have text : Ignore.globText false ['g'] = ['*', '*', '/', 'g'] := by decide
  have glob : Ignore.Glob.ofText ['*', '*', '/', 'g'] = .ok [.leading, .literal 'g'] := by
    simp [Ignore.Glob.ofText, Ignore.GlobReading.finish, Ignore.GlobReading.step, Ignore.star,
      Ignore.GlobReading.start, Ignore.GlobReading.add]
  simp [Ignore.File.ofOctets, lines, Ignore.File.ofLines, decoded, Ignore.File.withoutMarks,
    Ignore.Pattern.ofLine?, trimmed, Ignore.Pattern.ofTrimmed, Ignore.Marks.ofLine, text, glob,
    Except.map, Ignore.File.empty, directoryG]

theorem loadFile_grove :
    Ignore.File.load grove.tree grove.current ⟨"./.ignore"⟩ = ⟨[directoryG], []⟩ := by
  have cut : (Path.mk "./.ignore").steps = [.stay, .into ".ignore"] := by decide
  have located : grove.tree.locate .target grove.current ⟨"./.ignore"⟩ = .ok [".ignore"] := by
    rw [FileTree.locate_of_steps (by decide) (by decide) (by decide) cut]
    simp only [FileTree.follow]
    rfl
  rw [Ignore.File.load, FileTree.read, located]
  exact ofOctets_grove

/-- The other paths where a scan looks for ignore files, and their steps. -/
def groveGaps : List (Path × List Step) :=
  [(⟨"./.gitignore"⟩, [.stay, .into ".gitignore"]),
    (⟨"./.git/info/exclude"⟩, [.stay, .into ".git", .into "info", .into "exclude"]),
    (⟨"./g/.ignore"⟩, [.stay, .into "g", .into ".ignore"]),
    (⟨"./g/.gitignore"⟩, [.stay, .into "g", .into ".gitignore"]),
    (⟨"./g/.git/info/exclude"⟩, [.stay, .into "g", .into ".git", .into "info", .into "exclude"])]

theorem loadFile_groveGaps :
    ∀ gap ∈ groveGaps, Ignore.File.load grove.tree grove.current gap.1 = .empty := by
  have written : ∀ gap ∈ groveGaps, '\x00' ∉ gap.1.text.toList ∧ gap.1.text ≠ "" ∧
      gap.1.text.utf8ByteSize ≤ FileTree.pathLimit ∧ gap.1.steps = gap.2 := by decide
  intro gap member
  have missing : grove.tree.follow .target FileTree.linkLimit (gap.1.origin grove.current) gap.2 =
      .error .notFound := by
    unfold groveGaps at member
    fin_cases member
    all_goals
      simp only [FileTree.follow]
      rfl
  obtain ⟨noZero, nonempty, short, cut⟩ := written gap member
  rw [Ignore.File.load, FileTree.read, FileTree.locate_of_steps noZero nonempty short cut, missing]
  rfl

theorem ignoring_grove : Ignoring.load grove ⟨"."⟩ [] =
    ⟨[([], ⟨⟨"."⟩, ⟨[directoryG], []⟩, .empty, .empty⟩), (["g"], ⟨⟨"./g"⟩, .empty, .empty, .empty⟩)],
      [], [], ⟨"/"⟩⟩ := by
  have gaps := loadFile_groveGaps
  simp only [groveGaps, List.forall_mem_cons] at gaps
  obtain ⟨git, gitExclude, plainBelow, gitBelow, gitExcludeBelow, -⟩ := gaps
  have top : Ignore.Layer.load grove ⟨"."⟩ = ⟨⟨"."⟩, ⟨[directoryG], []⟩, .empty, .empty⟩ := by
    have loaded : Ignore.Layer.load grove ⟨"."⟩ =
        ⟨⟨"."⟩, .load grove.tree grove.current ⟨"./.ignore"⟩,
          .load grove.tree grove.current ⟨"./.gitignore"⟩,
          .load grove.tree grove.current ⟨"./.git/info/exclude"⟩⟩ := rfl
    rw [loaded, loadFile_grove, git, gitExclude]
  have below : Ignore.Layer.load grove ⟨"./g"⟩ = ⟨⟨"./g"⟩, .empty, .empty, .empty⟩ := by
    have loaded : Ignore.Layer.load grove ⟨"./g"⟩ =
        ⟨⟨"./g"⟩, .load grove.tree grove.current ⟨"./g/.ignore"⟩,
          .load grove.tree grove.current ⟨"./g/.gitignore"⟩,
          .load grove.tree grove.current ⟨"./g/.git/info/exclude"⟩⟩ := rfl
    rw [loaded, plainBelow, gitBelow, gitExcludeBelow]
  rw [← top, ← below]
  rfl

/-- What is searched for in the grove, with or without regard to the ignore file. -/
def groveSettings (respect : Bool) : ScanSettings :=
  { extensions := ["cs", "kt"], exclude := [], respectGitignore := respect }

theorem isFound_grove_iff {respect : Bool} {ignoring : Ignoring} {names : List String} :
    IsFound grove.tree (groveSettings respect) [] ignoring ⟨"."⟩ [] names ↔
      names ∈ [["g", "k.cs"], ["g-b.CS"], ["m.kt"]] ∧
        ignoring.reaches ⟨"."⟩ [] names = true := by
  have listed : filesBelow grove.tree [] = [[".ignore"], ["m.kt"], ["g-b.CS"], ["g", "k.cs"]] := by
    decide
  constructor
  · rintro ⟨file, ⟨name, last, extension⟩, -, reached⟩
    refine ⟨?_, reached⟩
    have member := mem_filesBelow_iff.mpr file
    rw [listed] at member
    fin_cases member
    · obtain rfl : ".ignore" = name := Option.some.inj last
      have other : hasExtension ["cs", "kt"] ".ignore" = false := by decide
      exact absurd (extension.symm.trans other) (by decide)
    all_goals decide
  · rintro ⟨member, reached⟩
    fin_cases member
    all_goals exact ⟨mem_filesBelow_iff.mp (by decide), ⟨_, rfl, by decide +revert⟩, rfl, reached⟩

theorem locate_grove : grove.tree.locate .target grove.current ⟨"."⟩ = .ok [] := by
  have cut : (Path.mk ".").steps = [.stay] := by decide
  rw [FileTree.locate_of_steps (by decide) (by decide) (by decide) cut]
  simp only [FileTree.follow]
  rfl

theorem before_grove : [⟨"./g/k.cs"⟩, ⟨"./g-b.CS"⟩, ⟨"./m.kt"⟩].Pairwise Path.Before := by
  simp only [List.pairwise_cons, List.mem_cons, List.not_mem_nil, or_false, forall_eq_or_imp,
    forall_eq]
  exact ⟨⟨Path.compare_key_iff.mp (by decide), Path.compare_key_iff.mp (by decide)⟩,
    Path.compare_key_iff.mp (by decide), by simp, .nil⟩

/-- With regard to the ignore file, the file in the directory `g` is not found. -/
theorem files_grove :
    files grove (groveSettings true) ⟨"."⟩ = .ok [⟨"./g-b.CS"⟩, ⟨"./m.kt"⟩] := by
  have inEffect : Ignoring.inEffect grove (groveSettings true) ⟨"."⟩ [] = .load grove ⟨"."⟩ [] := rfl
  have silent : (Ignoring.inEffect grove (groveSettings true) ⟨"."⟩ []).messages = [] := by
    rw [inEffect, ignoring_grove]
    rfl
  rw [files_of_messages locate_grove (by decide) (by decide) (groveSettings true) rfl silent]
  refine congrArg _ (eq_scan_of_mem_iff before_grove.of_cons fun path => ?_).symm
  simp only [isFound_grove_iff, inEffect, ignoring_grove]
  constructor
  · intro member
    fin_cases member
    · exact ⟨["g-b.CS"], by decide, by decide⟩
    · exact ⟨["m.kt"], by decide, by decide⟩
  · rintro ⟨names, ⟨member, reached⟩, rfl⟩
    fin_cases member
    · revert reached
      decide
    all_goals decide

/-- A pattern takes away the file that it matches, and without regard to the ignore file nothing is
lost. -/
theorem filters_compose_in_grove :
    grove.tree.locate .target grove.current ⟨"."⟩ = .ok [] ∧ grove.tree.isDirectory [] = true ∧
      files grove (groveSettings true) ⟨"."⟩ = .ok [⟨"./g-b.CS"⟩, ⟨"./m.kt"⟩] ∧
      files grove { groveSettings true with exclude := ["?.kt"] } ⟨"."⟩ = .ok [⟨"./g-b.CS"⟩] ∧
      ∃ all, files grove (groveSettings false) ⟨"."⟩ = .ok all ∧
        [⟨"./g-b.CS"⟩, ⟨"./m.kt"⟩].Sublist all := by
  obtain ⟨narrowed, -, all⟩ := filters_compose locate_grove (by decide) files_grove
  refine ⟨locate_grove, by decide, files_grove, ?_, all⟩
  have pattern : excludes ["?.kt"] =
      .ok [[.anyChar, .literal '.', .literal 'k', .literal 't']] := by
    simp [excludes, Exclude.ofText, Exclude.tokensFrom, Except.map]
  exact narrowed _ _ pattern

end LineLint.Discovery
