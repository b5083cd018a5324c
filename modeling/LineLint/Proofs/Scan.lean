import LineLint.Disk
import LineLint.Proofs.Paths
import Mathlib.Data.List.Nodup
import Mathlib.Tactic.FinCases

/-! # What a scan finds

Without ignore files, the scan of a directory finds exactly the files that lie below it, at any depth
and not behind links, that have one of the extensions and that no exclude pattern matches. Each of
them is found once. Only below a directory that is asked for as `-` nothing is found, because a walk
takes that path for the standard input. Spelled in another way the same directory is searched.
-/

namespace LineLint

namespace FileTree

variable {tree : FileTree} {place : Place} {name : String} {names : List String}

/-- The names lead from a place through directories to a file. -/
inductive HasFile (tree : FileTree) : Place → List String → Prop
  | here {place : Place} {name : String} {octets : List UInt8}
      (file : tree.at? (place ++ [name]) = some (.file octets)) : HasFile tree place [name]
  | inside {place : Place} {name : String} {rest : List String}
      (directory : tree.at? (place ++ [name]) = some .directory)
      (below : HasFile tree (place ++ [name]) rest) : HasFile tree place (name :: rest)

theorem isName_of_at? {entry : Entry} (found : tree.at? (place ++ names) = some entry) :
    ∀ name ∈ names, IsName name := by
  intro name member
  have listed := mem_of_at? (by simp [List.ne_nil_of_mem member]) found
  exact (tree.named _ _ listed).2 name (List.mem_append_right place member)

/-- What lies somewhere lies in a directory. -/
theorem at?_of_at?_append {entry : Entry} (found : tree.at? (place ++ [name]) = some entry) :
    tree.at? place = some .directory := by
  by_cases top : place = []
  · rw [top, at?_nil]
  · have within := tree.inDirectory _ _ (mem_of_at? (by simp) found)
    rw [List.dropLast_concat] at within
    exact (at?_eq_some_iff top).mpr (within.resolve_left top)

/-- All directories on the way to what lies somewhere are there. -/
theorem at?_of_at?_append_append {entry : Entry} (nonempty : names ≠ [])
    (found : tree.at? (place ++ names) = some entry) : tree.at? place = some .directory := by
  induction names using List.reverseRecOn generalizing entry with
  | nil => exact absurd rfl nonempty
  | append_singleton front last ih =>
    rw [← List.append_assoc] at found
    have above := at?_of_at?_append found
    by_cases top : front = []
    · rwa [top, List.append_nil] at above
    · exact ih top above

/-- The files below a place are the files that are listed with its names in front. -/
theorem hasFile_iff : tree.HasFile place names ↔
    names ≠ [] ∧ ∃ octets, tree.at? (place ++ names) = some (.file octets) := by
  constructor
  · intro file
    induction file with
    | here file => exact ⟨by simp, _, file⟩
    | inside _ _ ih =>
      obtain ⟨_, octets, file⟩ := ih
      rw [List.append_assoc] at file
      exact ⟨by simp, octets, file⟩
  · rintro ⟨nonempty, octets, file⟩
    induction names generalizing place with
    | nil => exact absurd rfl nonempty
    | cons name rest ih =>
      by_cases last : rest = []
      · subst last
        exact .here file
      · have file : tree.at? ((place ++ [name]) ++ rest) = some (.file octets) := by
          rwa [List.append_assoc]
        exact .inside (at?_of_at?_append_append last file) (ih last file)

theorem HasFile.isName (file : tree.HasFile place names) : ∀ name ∈ names, IsName name := by
  obtain ⟨_, _, file⟩ := hasFile_iff.mp file
  exact isName_of_at? file

/-- The steps that lead to something through all links name something. -/
theorem exists_follow_itself {links : Nat} {steps : List Step} {found : Place}
    (leads : tree.follow .target links place steps = .ok found) :
    ∃ named, tree.follow .itself links place steps = .ok named := by
  fun_induction follow tree .target links place steps with
  | case1 links place => exact ⟨place, follow_nil ..⟩
  | case2 => cases leads
  | case3 links place rest inside ih | case4 links place rest inside ih
  | case5 links place rest inside ih =>
    obtain ⟨named, names⟩ := ih leads
    refine ⟨named, ?_⟩
    rw [follow, if_neg inside]
    exact names
  | case6 => cases leads
  | case7 => cases leads
  | case8 _ _ _ _ _ _ _ _ writing => cases writing.1
  | case9 => cases leads
  | case10 _ _ _ _ _ _ _ _ _ itself => cases itself.1
  | case11 => cases leads
  | case12 place rest inside name _ short text link _ links target ih =>
    by_cases last : rest = []
    · refine ⟨place ++ [name], ?_⟩
      rw [follow, if_neg inside]
      simp [short, link, last]
    · obtain ⟨named, names⟩ := ih leads
      refine ⟨named, ?_⟩
      rw [follow, if_neg inside]
      simpa [short, link, last] using names
  | case13 links place rest inside name _ short entry noLink there ih =>
    obtain ⟨named, names⟩ := ih leads
    refine ⟨named, ?_⟩
    rw [follow, if_neg inside]
    cases entry with
    | link text => exact absurd rfl (noLink text)
    | file octets => simpa [short, there] using names
    | directory => simpa [short, there] using names

/-- Where a path leads to something through all links, it names something. -/
theorem exists_locate_itself {start : Place} {path : Path}
    (leads : tree.locate .target start path = .ok place) :
    ∃ named, tree.locate .itself start path = .ok named := by
  unfold locate at leads ⊢
  split at leads
  · cases leads
  · split at leads
    · cases leads
    · split at leads
      · cases leads
      · rename_i noZero nonempty short
        rw [if_neg noZero, if_neg nonempty, if_neg short]
        exact exists_follow_itself leads

/-- A path that the system accepts is followed along its steps. -/
theorem locate_of_steps {purpose : Purpose} {start : Place} {path : Path} {steps : List Step}
    (noZero : '\x00' ∉ path.text.toList) (nonempty : path.text ≠ "")
    (short : path.text.utf8ByteSize ≤ pathLimit) (cut : path.steps = steps) :
    tree.locate purpose start path =
      tree.follow purpose linkLimit (path.origin start) steps := by
  rw [locate, if_neg noZero, if_neg nonempty, if_neg (Nat.not_lt.mpr short), cut]

end FileTree

namespace Discovery

open Text

/-- Whether what follows the last dot of a name is a listed extension, up to ASCII case, and
something stands in front of that dot. -/
def HasListedExtension (extensions : List String) (name : String) : Prop :=
  ∃ front extension, name.toList = front ++ '.' :: extension ∧ front ≠ [] ∧ '.' ∉ extension ∧
    ∃ listed ∈ extensions, listed.toList.map Char.toLower = extension.map Char.toLower

theorem extension?_of_not_mem {name : String} (noDot : '.' ∉ name.toList) :
    extension? name = none := by
  rw [extension?, split_of_not_mem noDot]
  rfl

/-- A name that only begins with a dot has no extension. -/
theorem extension?_of_last_dot {name : String} {front extension : List Char}
    (cut : name.toList = front ++ '.' :: extension) (noDot : '.' ∉ extension) :
    extension? name = if front = [] then none else some extension := by
  obtain ⟨before, more, pieces⟩ : ∃ before more, (split '.' front).reverse = before :: more :=
    List.exists_cons_of_ne_nil (by simp [split_ne_nil])
  have single : before = [] ∧ more = [] ↔ front = [] := by
    constructor
    · rintro ⟨rfl, rfl⟩
      have whole := join_split '.' front
      rw [List.reverse_eq_iff.mp pieces] at whole
      exact whole.symm
    · rintro rfl
      simpa [split, eq_comm] using pieces
  rw [extension?, cut, split_append_cons, split_of_not_mem noDot, List.reverse_append, pieces]
  simp only [List.reverse_singleton, List.singleton_append, single]

theorem extension?_eq_some_iff {name : String} {extension : List Char} :
    extension? name = some extension ↔
      ∃ front, name.toList = front ++ '.' :: extension ∧ front ≠ [] ∧ '.' ∉ extension := by
  constructor
  · intro found
    by_cases dot : '.' ∈ name.toList.reverse
    · obtain ⟨back, front, cut, noDot⟩ := List.eq_append_cons_of_mem dot
      have cut : name.toList = front.reverse ++ '.' :: back.reverse := by
        rw [← List.reverse_inj, cut]
        simp
      have noDot : '.' ∉ back.reverse := by simpa using noDot
      rw [extension?_of_last_dot cut noDot] at found
      split at found
      · cases found
      · rename_i nonempty
        cases found
        exact ⟨front.reverse, cut, nonempty, noDot⟩
    · rw [extension?_of_not_mem (by simpa using dot)] at found
      cases found
  · rintro ⟨front, cut, nonempty, noDot⟩
    rw [extension?_of_last_dot cut noDot, if_neg nonempty]

/-- Extensions are compared up to ASCII case. -/
theorem hasExtension_iff {extensions : List String} {name : String} :
    hasExtension extensions name = true ↔ HasListedExtension extensions name := by
  simp only [hasExtension, Option.any_eq_true, extension?_eq_some_iff, List.any_eq_true,
    equalUpToCase_iff, HasListedExtension]
  constructor
  · rintro ⟨extension, ⟨front, cut, nonempty, noDot⟩, listed⟩
    exact ⟨front, extension, cut, nonempty, noDot, listed⟩
  · rintro ⟨front, extension, cut, nonempty, noDot, listed⟩
    exact ⟨extension, ⟨front, cut, nonempty, noDot⟩, listed⟩

theorem namesBelow?_eq_some_iff {place entry : Place} {names : List String} :
    namesBelow? place entry = some names ↔ names ≠ [] ∧ entry = place ++ names := by
  simp only [namesBelow?, List.isPrefixOf_iff_prefix]
  constructor
  · intro found
    split at found
    · rename_i below
      obtain ⟨⟨behind, rfl⟩, longer⟩ := below
      rw [List.drop_left] at found
      cases found
      exact ⟨by rintro rfl; simp at longer, rfl⟩
    · cases found
  · rintro ⟨nonempty, rfl⟩
    have longer := List.length_pos_iff.mpr nonempty
    rw [if_pos ⟨List.prefix_append place names, by simpa using longer⟩, List.drop_left]

/-- The files below a place are regular files, links left out. -/
theorem mem_filesBelow_iff {tree : FileTree} {place : Place} {names : List String} :
    names ∈ filesBelow tree place ↔ tree.HasFile place names := by
  rw [FileTree.hasFile_iff, filesBelow, List.mem_filterMap]
  constructor
  · rintro ⟨⟨entry, content⟩, listed, found⟩
    cases content with
    | file octets =>
      obtain ⟨nonempty, rfl⟩ := namesBelow?_eq_some_iff.mp found
      exact ⟨nonempty, octets, (FileTree.at?_eq_some_iff (by simp [nonempty])).mpr listed⟩
    | directory => cases found
    | link => cases found
  · rintro ⟨nonempty, octets, file⟩
    refine ⟨⟨place ++ names, .file octets⟩, FileTree.mem_of_at? (by simp [nonempty]) file, ?_⟩
    exact namesBelow?_eq_some_iff.mpr ⟨nonempty, rfl⟩

theorem nodup_filesBelow (tree : FileTree) (place : Place) : (filesBelow tree place).Nodup := by
  apply List.pairwise_filterMap.mpr
  apply (List.pairwise_map.mp tree.places_nodup).imp
  rintro ⟨entry, content⟩ ⟨other, otherContent⟩ different names first others second rfl
  cases content with
  | file =>
    cases otherContent with
    | file =>
      obtain ⟨_, rfl⟩ := namesBelow?_eq_some_iff.mp first
      obtain ⟨_, rfl⟩ := namesBelow?_eq_some_iff.mp second
      exact different rfl
    | directory => cases second
    | link => cases second
  | directory => cases first
  | link => cases first

/-- Without ignore files everything is reached. -/
theorem reaches_nothing (root : Path) (place : Place) (names : List String) :
    Ignoring.nothing.reaches root place names = true := by
  have silent : ∀ way isDirectory,
      Ignoring.nothing.verdict? root place way isDirectory = none := by
    intro way isDirectory
    simp [Ignoring.verdict?, Ignoring.nothing, Ignore.verdictOfViews?, Ignore.verdictOfKind?,
      Ignore.verdict?]
  simp [Ignoring.reaches, silent]

/-- What a scan is for, where nothing is ignored: the names lead to a file below the place, the file
has one of the extensions, and no exclude pattern matches the names with slashes between them. -/
structure IsWanted (tree : FileTree) (extensions : List String)
    (excludes : List (List Exclude.Token)) (place : Place) (names : List String) : Prop where
  file : tree.HasFile place names
  extension : ∃ name, names.getLast? = some name ∧ HasListedExtension extensions name
  kept : ∀ tokens ∈ excludes, Exclude.isMatch tokens ("/".intercalate names).toList = false

/-- Whether two lists hold the same extensions, up to ASCII case. -/
def SameExtensions (extensions others : List String) : Prop :=
  (∀ a ∈ extensions, ∃ b ∈ others, a.toList.map Char.toLower = b.toList.map Char.toLower) ∧
    ∀ b ∈ others, ∃ a ∈ extensions, b.toList.map Char.toLower = a.toList.map Char.toLower

variable {w : Workspace} {settings : ScanSettings} {tokens : List (List Exclude.Token)}
  {root : Path} {place : Place}

/-- The ignore files that count under some settings in the scan of a root that lies at a place. -/
def Ignoring.inEffect (w : Workspace) (settings : ScanSettings) (root : Path) (place : Place) :
    Ignoring :=
  if settings.respectGitignore then .load w root place else .nothing

/-- A walk of a workspace notes nothing, or the files below a place that are reached. -/
theorem noted_of_walker {noted : List (List String)}
    (walked : w.walker settings.respectGitignore root = .ok noted) :
    noted = [] ∨ ∃ place, noted = (filesBelow w.tree place).filter
      ((Ignoring.inEffect w settings root place).reaches root place) := by
  rw [Workspace.walker] at walked
  split at walked
  · exact .inl (Except.ok.inj walked).symm
  · split at walked
    · cases walked
    · cases walked
    · rename_i place _ _
      by_cases isDirectory : w.tree.isDirectory place = true
      · rw [if_pos isDirectory] at walked
        rw [← Ignoring.inEffect] at walked
        dsimp only at walked
        split at walked
        · exact .inr ⟨place, (Except.ok.inj walked).symm⟩
        · cases walked
      · rw [if_neg isDirectory] at walked
        exact .inl (Except.ok.inj walked).symm

/-- Of nothing, no files are left. -/
theorem sifted_nil : sifted settings tokens root [] = [] := by simp [sifted]

/-- What a walk of a workspace notes is the scan of a directory, once it is sifted. The walk notes
nothing where it takes its root for the standard input, and it fails if something is wrong with the
ignore files above the root. -/
theorem map_sifted_walker (w : Workspace) (settings : ScanSettings)
    (tokens : List (List Exclude.Token)) (root : Path) :
    (w.walker settings.respectGitignore root).map (sifted settings tokens root) =
      if root.components = standardInput.components then .ok []
      else
        match w.tree.locate .itself w.current root, w.tree.locate .target w.current root with
        | .error error, _ => .error (.badRoot root error)
        | _, .error error => .error (.badRoot root error)
        | .ok _, .ok place =>
          if w.tree.isDirectory place then
            match (Ignoring.inEffect w settings root place).messages with
            | [] => .ok (scan w.tree settings tokens (.inEffect w settings root place) root place)
            | messages => .error (.badIgnoreFiles messages)
          else .ok [] := by
  have inEffect : ∀ place, (if settings.respectGitignore then Ignoring.load w root place
      else .nothing) = Ignoring.inEffect w settings root place := fun _ => rfl
  rw [Workspace.walker]
  simp only [inEffect]
  by_cases input : root.components = standardInput.components
  · rw [if_pos input, if_pos input, Except.map, sifted_nil]
  rw [if_neg input, if_neg input]
  cases w.tree.locate .itself w.current root with
  | error error => rfl
  | ok named =>
    cases w.tree.locate .target w.current root with
    | error error => rfl
    | ok place =>
      dsimp only
      split
      · cases (Ignoring.inEffect w settings root place).messages <;> rfl
      · rw [Except.map, sifted_nil]

/-- A directory is walked unless the walk takes its path for the standard input. -/
theorem files_of_locate (valid : excludes settings.exclude = .ok tokens)
    (leads : w.tree.locate .target w.current root = .ok place)
    (isDirectory : w.tree.isDirectory place = true) :
    files w settings root =
      if root.components = standardInput.components then .ok []
      else
        match (Ignoring.inEffect w settings root place).messages with
        | [] => .ok (scan w.tree settings tokens (.inEffect w settings root place) root place)
        | messages => .error (.badIgnoreFiles messages) := by
  have directory : w.tree.at? place = some .directory := by
    simpa [FileTree.isDirectory] using isDirectory
  have notFile : w.isFile root = false := by
    simp [Workspace.isFile, FileTree.isFileAt, FileTree.get?, leads, directory]
  obtain ⟨named, itself⟩ := FileTree.exists_locate_itself leads
  have walked := map_sifted_walker w settings tokens root
  simp only [itself, leads, isDirectory, if_true] at walked
  rw [files, filesBy_of_excludes valid]
  exact (if_neg (ne_true_of_eq_false notFile)).trans walked

/-- Where ignore files do not count, the walk does not fail. -/
theorem files_of_isDirectory (off : settings.respectGitignore = false)
    (valid : excludes settings.exclude = .ok tokens)
    (leads : w.tree.locate .target w.current root = .ok place)
    (isDirectory : w.tree.isDirectory place = true) :
    files w settings root =
      if root.components = standardInput.components then .ok []
      else .ok (scan w.tree settings tokens .nothing root place) := by
  have nothing : Ignoring.inEffect w settings root place = .nothing := by
    simp [Ignoring.inEffect, off]
  rw [files_of_locate valid leads isDirectory, nothing]
  rfl

/-- A scan puts all its tests to the files below a place. -/
theorem scan_eq {tree : FileTree} {ignoring : Ignoring} :
    scan tree settings tokens ignoring root place =
      (((filesBelow tree place).filter fun names =>
        (names.getLast?.any fun name => hasExtension settings.extensions name) &&
          !isExcluded tokens root (root.joinAll names) &&
          ignoring.reaches root place names).map root.joinAll).mergeSort inOrder := by
  rw [scan, sifted, List.filter_filter]

/-- The tests of a scan say which files are wanted. -/
theorem isWanted_iff {names : List String} (file : w.tree.HasFile place names) :
    ((names.getLast?.any fun name => hasExtension settings.extensions name) &&
        !isExcluded tokens root (root.joinAll names) &&
        Ignoring.nothing.reaches root place names) = true ↔
      IsWanted w.tree settings.extensions tokens place names := by
  have nonempty := (FileTree.hasFile_iff.mp file).1
  rw [isExcluded, Path.idBelow_joinAll root nonempty file.isName, reaches_nothing, Bool.and_true]
  simp only [Bool.and_eq_true, Option.any_eq_true, hasExtension_iff, Bool.not_eq_true',
    List.any_eq_false, Bool.not_eq_true]
  constructor
  · rintro ⟨extension, kept⟩
    exact ⟨file, extension, kept⟩
  · rintro ⟨_, extension, kept⟩
    exact ⟨extension, kept⟩

/-- Without ignore files, the wanted files are all that decides. -/
theorem mem_scan_iff {path : Path} : path ∈ scan w.tree settings tokens .nothing root place ↔
    ∃ names, IsWanted w.tree settings.extensions tokens place names ∧
      path = root.joinAll names := by
  simp only [scan_eq, List.mem_mergeSort, List.mem_map, List.mem_filter, mem_filesBelow_iff]
  constructor
  · rintro ⟨names, ⟨file, tests⟩, rfl⟩
    exact ⟨names, (isWanted_iff file).mp tests, rfl⟩
  · rintro ⟨names, wanted, rfl⟩
    exact ⟨names, ⟨wanted.file, (isWanted_iff wanted.file).mpr wanted⟩, rfl⟩

theorem nodup_scan : (scan w.tree settings tokens .nothing root place).Nodup := by
  rw [scan_eq, (List.mergeSort_perm _ _).nodup_iff]
  apply List.Nodup.map_on _ ((nodup_filesBelow w.tree place).filter _)
  intro names member others alsoMember same
  have file := mem_filesBelow_iff.mp (List.mem_of_mem_filter member)
  have otherFile := mem_filesBelow_iff.mp (List.mem_of_mem_filter alsoMember)
  exact Path.joinAll_injective root file.isName otherFile.isName same

/-- A scan depends on what is wanted alone. -/
theorem scan_congr {others : ScanSettings} {otherTokens : List (List Exclude.Token)}
    (same : ∀ names, IsWanted w.tree others.extensions otherTokens place names ↔
      IsWanted w.tree settings.extensions tokens place names) :
    scan w.tree others otherTokens .nothing root place =
      scan w.tree settings tokens .nothing root place := by
  rw [scan_eq, scan_eq]
  congr 2
  apply List.filter_congr
  intro names member
  have file := mem_filesBelow_iff.mp member
  rw [Bool.eq_iff_iff]
  exact (isWanted_iff file).trans ((same names).trans (isWanted_iff file).symm)

theorem HasListedExtension.of_sameExtensions {extensions others : List String} {name : String}
    (same : ∀ a ∈ extensions, ∃ b ∈ others,
      a.toList.map Char.toLower = b.toList.map Char.toLower)
    (listed : HasListedExtension extensions name) : HasListedExtension others name := by
  obtain ⟨front, extension, cut, nonempty, noDot, a, member, equal⟩ := listed
  obtain ⟨b, alsoMember, alike⟩ := same a member
  exact ⟨front, extension, cut, nonempty, noDot, b, alsoMember, alike.symm.trans equal⟩

theorem isWanted_iff_of_sameExtensions {tree : FileTree} {extensions others : List String}
    {names : List String} (same : SameExtensions extensions others) :
    IsWanted tree others tokens place names ↔ IsWanted tree extensions tokens place names := by
  constructor
  · rintro ⟨file, ⟨name, last, listed⟩, kept⟩
    exact ⟨file, ⟨name, last, listed.of_sameExtensions same.2⟩, kept⟩
  · rintro ⟨file, ⟨name, last, listed⟩, kept⟩
    exact ⟨file, ⟨name, last, listed.of_sameExtensions same.1⟩, kept⟩

/-- Patterns that match no file leave what is wanted as it is. -/
theorem isWanted_append_iff {tree : FileTree} {extensions names : List String}
    {more : List (List Exclude.Token)}
    (unmatched : tree.HasFile place names → ∀ pattern ∈ more,
      Exclude.isMatch pattern ("/".intercalate names).toList = false) :
    IsWanted tree extensions (tokens ++ more) place names ↔
      IsWanted tree extensions tokens place names := by
  constructor
  · rintro ⟨file, extension, kept⟩
    exact ⟨file, extension, (List.forall_mem_append.mp kept).1⟩
  · rintro ⟨file, extension, kept⟩
    exact ⟨file, extension, List.forall_mem_append.mpr ⟨kept, unmatched file⟩⟩

theorem excludes_append {front back : List String} {first second : List (List Exclude.Token)}
    (valid : excludes front = .ok first) (alsoValid : excludes back = .ok second) :
    excludes (front ++ back) = .ok (first ++ second) := by
  induction front generalizing first with
  | nil =>
    cases valid
    exact alsoValid
  | cons pattern rest ih =>
    rw [List.cons_append, excludes]
    rw [excludes] at valid
    split at valid
    · cases valid
    · rename_i tokens _
      cases read : excludes rest with
      | error error =>
        rw [read] at valid
        cases valid
      | ok others =>
        rw [read] at valid
        cases valid
        rw [ih read]
        rfl

/-- The files that are found in a directory depend on what is wanted alone. -/
theorem files_congr {others : ScanSettings} {otherTokens : List (List Exclude.Token)}
    (off : settings.respectGitignore = false) (alsoOff : others.respectGitignore = false)
    (valid : excludes settings.exclude = .ok tokens)
    (alsoValid : excludes others.exclude = .ok otherTokens)
    (leads : w.tree.locate .target w.current root = .ok place)
    (isDirectory : w.tree.isDirectory place = true)
    (same : ∀ names, IsWanted w.tree others.extensions otherTokens place names ↔
      IsWanted w.tree settings.extensions tokens place names) :
    files w others root = files w settings root := by
  rw [files_of_isDirectory off valid leads isDirectory,
    files_of_isDirectory alsoOff alsoValid leads isDirectory, scan_congr same]

/-- Where nothing is ignored, the files of a directory are found exactly if they are wanted, and each
of them once, unless the walk takes the path of the directory for the standard input and finds none. It
does not matter how the extensions are listed, nor does a pattern matter that matches no file. -/
theorem files_of_directory (off : settings.respectGitignore = false)
    (valid : excludes settings.exclude = .ok tokens)
    (leads : w.tree.locate .target w.current root = .ok place)
    (isDirectory : w.tree.isDirectory place = true) :
    (root.components = standardInput.components → files w settings root = .ok []) ∧
      (root.components ≠ standardInput.components →
        ∃ found, files w settings root = .ok found ∧ found.Nodup ∧
          ∀ path, path ∈ found ↔
            ∃ names, IsWanted w.tree settings.extensions tokens place names ∧
              path = root.joinAll names) ∧
      (∀ others, SameExtensions settings.extensions others →
        files w { settings with extensions := others } root = files w settings root) ∧
      ∀ more moreTokens, excludes more = .ok moreTokens →
        (∀ names, w.tree.HasFile place names → ∀ pattern ∈ moreTokens,
          Exclude.isMatch pattern ("/".intercalate names).toList = false) →
        files w { settings with exclude := settings.exclude ++ more } root =
          files w settings root := by
  have searched := files_of_isDirectory off valid leads isDirectory
  refine ⟨?_, ?_, ?_, ?_⟩
  · intro input
    rw [searched, if_pos input]
  · intro input
    rw [if_neg input] at searched
    exact ⟨_, searched, nodup_scan, fun path => mem_scan_iff⟩
  · intro others same
    refine files_congr off ?_ valid valid leads isDirectory ?_
    · exact off
    · intro names
      exact isWanted_iff_of_sameExtensions same
  · intro more moreTokens alsoValid unmatched
    refine files_congr off ?_ valid (excludes_append valid alsoValid) leads isDirectory ?_
    · exact off
    · intro names
      exact isWanted_append_iff (unmatched names)

end Discovery

/-- A tree with a directory called `-`, in which a file lies in a hidden directory, another one in a
directory that is often left out, and a link leads nowhere. -/
def FileTree.hyphen : FileTree where
  entries :=
    [(["-"], .directory), (["-", ".h"], .directory), (["-", ".h", "A.CS"], .file []),
      (["-", "bin"], .directory), (["-", "bin", "b.cs"], .file []), (["-", "l.cs"], .link "b")]
  places_nodup := by decide
  named := by
    intro place entry member
    fin_cases member <;> decide
  inDirectory := by
    intro place entry member
    fin_cases member <;> decide

theorem FileTree.locate_hyphen {root : Path} (spelled : root = ⟨"-"⟩ ∨ root = ⟨"./-/"⟩) :
    hyphen.locate .target [] root = .ok ["-"] := by
  rcases spelled with rfl | rfl
  · have steps : (Path.mk "-").steps = [.into "-"] := by decide
    rw [locate, if_neg (by decide), if_neg (by decide), if_neg (by decide), steps]
    simp only [follow]
    rfl
  · have steps : (Path.mk "./-/").steps = [.stay, .into "-", .slash] := by decide
    rw [locate, if_neg (by decide), if_neg (by decide), if_neg (by decide), steps]
    simp only [follow]
    rfl

namespace Discovery

/-- The pattern `**/bin/**`. -/
def belowBin : List Exclude.Token :=
  [.anyDirectories, .literal 'b', .literal 'i', .literal 'n', .literal '/', .anyDirectories]

theorem excludes_belowBin : excludes ["**/bin/**"] = .ok [belowBin] := by cbv

/-- Of the two files in the directory called `-` one is wanted. -/
theorem isWanted_hyphen_iff {names : List String} :
    IsWanted .hyphen ["cs"] [belowBin] ["-"] names ↔ names = [".h", "A.CS"] := by
  constructor
  · intro wanted
    have found : filesBelow .hyphen ["-"] = [[".h", "A.CS"], ["bin", "b.cs"]] := by decide
    have member := mem_filesBelow_iff.mpr wanted.file
    rw [found] at member
    rcases List.mem_cons.mp member with rfl | other
    · rfl
    · obtain rfl := List.mem_singleton.mp other
      have kept := wanted.kept belowBin (List.mem_singleton_self _)
      have matched : Exclude.isMatch belowBin ("/".intercalate ["bin", "b.cs"]).toList = true := by
        cbv
      rw [matched] at kept
      cases kept
  · rintro rfl
    have file : FileTree.hyphen.at? ["-", ".h", "A.CS"] = some (.file []) := by decide
    have listed : HasListedExtension ["cs"] "A.CS" := ⟨['A'], ['C', 'S'], by decide⟩
    refine ⟨FileTree.hasFile_iff.mpr ⟨by simp, [], file⟩, ⟨"A.CS", rfl, listed⟩, ?_⟩
    intro pattern member
    obtain rfl := List.mem_singleton.mp member
    cbv

/-- In a directory that is asked for as `-` a file is wanted, and none is found. -/
theorem hyphen_is_not_searched :
    let w : Workspace := { tree := .hyphen, current := [] }
    let settings : ScanSettings := { exclude := ["**/bin/**"], respectGitignore := false }
    excludes settings.exclude = .ok [belowBin] ∧
      w.tree.locate .target w.current ⟨"-"⟩ = .ok ["-"] ∧ w.tree.isDirectory ["-"] = true ∧
      IsWanted w.tree settings.extensions [belowBin] ["-"] [".h", "A.CS"] ∧
      ¬ ∃ found, files w settings ⟨"-"⟩ = .ok found ∧
        ∀ path, path ∈ found ↔ ∃ names,
          IsWanted w.tree settings.extensions [belowBin] ["-"] names ∧
            path = Path.joinAll ⟨"-"⟩ names := by
  intro w settings
  have leads := FileTree.locate_hyphen (.inl rfl)
  have isDirectory : w.tree.isDirectory ["-"] = true := by decide
  have searched : files w settings ⟨"-"⟩ = .ok [] :=
    files_of_isDirectory rfl excludes_belowBin leads isDirectory
  have wanted : IsWanted w.tree settings.extensions [belowBin] ["-"] [".h", "A.CS"] :=
    isWanted_hyphen_iff.mpr rfl
  refine ⟨excludes_belowBin, leads, isDirectory, wanted, ?_⟩
  rintro ⟨found, exactly, mem_iff⟩
  obtain rfl : [] = found := Except.ok.inj (searched.symm.trans exactly)
  exact absurd ((mem_iff _).mpr ⟨_, wanted, rfl⟩) List.not_mem_nil

/-- The same directory is searched when it is spelled in another way: the file in the hidden
directory is found, and neither the link nor the file that the pattern leaves out. -/
theorem files_of_hyphen :
    let w : Workspace := { tree := .hyphen, current := [] }
    let settings : ScanSettings := { exclude := ["**/bin/**"], respectGitignore := false }
    settings.respectGitignore = false ∧ excludes settings.exclude = .ok [belowBin] ∧
      w.tree.locate .target w.current ⟨"./-/"⟩ = .ok ["-"] ∧ w.tree.isDirectory ["-"] = true ∧
      files w settings ⟨"./-/"⟩ = .ok [⟨"./-/.h/A.CS"⟩] ∧
      files w { settings with extensions := ["cS", "Cs"] } ⟨"./-/"⟩ =
        files w settings ⟨"./-/"⟩ := by
  intro w settings
  have leads := FileTree.locate_hyphen (.inr rfl)
  have isDirectory : w.tree.isDirectory ["-"] = true := by decide
  have unignored : settings.respectGitignore = false := rfl
  obtain ⟨_, search, renamed, _⟩ :=
    files_of_directory unignored excludes_belowBin leads isDirectory
  obtain ⟨found, searched, nodup, mem_iff⟩ := search (by decide)
  have single : found = [⟨"./-/.h/A.CS"⟩] := by
    apply List.perm_singleton.mp
    apply (List.perm_ext_iff_of_nodup nodup (List.nodup_singleton _)).mpr
    intro path
    rw [mem_iff, List.mem_singleton]
    constructor
    · rintro ⟨names, wanted, rfl⟩
      rw [isWanted_hyphen_iff.mp wanted]
      decide
    · rintro rfl
      exact ⟨[".h", "A.CS"], isWanted_hyphen_iff.mpr rfl, by decide⟩
  have same : SameExtensions settings.extensions ["cS", "Cs"] := by
    constructor <;> decide
  rw [single] at searched
  exact ⟨unignored, excludes_belowBin, leads, isDirectory, searched, renamed _ same⟩

end Discovery

end LineLint
