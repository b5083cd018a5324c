import LineLint.Proofs.Checking
import LineLint.Proofs.Following
import LineLint.Proofs.Listings
import LineLint.Proofs.ScanFilters
import LineLint.Proofs.Writing

/-! # A file that is added to a tree

Where nothing lay before, a file is put. A path then leads to the file if something could be written
there under the same path, and to the same as before otherwise. So a scan finds the same files and
ignores the same, unless it looks for an ignore file under such a path or finds the file itself.
-/

namespace LineLint

namespace FileTree

variable {a b tree : FileTree} {purpose : Purpose} {fits : Place → Prop} {links : Nat}
  {start place found new : Place} {steps : List Step} {path root : Path} {names : List String}
  {octets : List UInt8}

/-- Steps with a slash at their end lead to a directory. -/
theorem Way.isDirectory_of_slash (way : Way tree purpose fits links place steps found)
    (slash : steps.getLast? = some .slash) : tree.isDirectory found = true := by
  induction way with
  | here => cases slash
  | @slash _ _ _ rest inside onward ih =>
    cases rest with
    | nil =>
      cases onward
      exact inside
    | cons step rest => exact ih (by simpa using slash)
  | @stay _ _ _ rest _ _ ih | @up _ _ _ rest _ _ ih | @into _ _ _ _ rest _ _ _ _ _ _ _ _ ih =>
    cases rest with
    | nil => simp at slash
    | cons step rest => exact ih (by simpa using slash)
  | @through _ _ _ _ _ rest _ _ _ _ _ _ _ ih =>
    cases rest with
    | nil => simp at slash
    | cons step rest => exact ih (by simpa using slash)
  | link | fresh => simp at slash

/-- A way for writing whose last step goes into a name ends at something of this name, or goes through
a link of this name. -/
theorem Way.getLast?_or_link {name : String}
    (way : Way tree .writing fits links place steps found)
    (last : steps.getLast? = some (.into name)) :
    found.getLast? = some name ∨
      ∃ directory target, tree.at? (directory ++ [name]) = some (.link target) := by
  induction way with
  | here => cases last
  | @stay _ _ _ rest _ _ ih | @slash _ _ _ rest _ _ ih | @up _ _ _ rest _ _ ih =>
    cases rest with
    | nil => simp at last
    | cons step rest => exact ih (by simpa using last)
  | @into _ _ _ _ rest _ _ _ _ _ _ _ onward ih =>
    cases rest with
    | nil =>
      cases onward
      exact .inl (by simpa using last)
    | cons step rest => exact ih (by simpa using last)
  | @through _ _ _ _ _ rest _ _ _ link _ _ _ ih =>
    cases rest with
    | nil =>
      obtain rfl := Step.into.inj (by simpa using last)
      exact .inr ⟨_, _, link⟩
    | cons step rest => exact ih (by simpa using last)
  | link _ _ _ _ itself => cases itself
  | fresh => exact .inl (by simpa using last)

section Kept

variable (adds : Adds a b new)
include adds

/-- What is read under a path that leads somewhere stays the same. -/
theorem Adds.read_of_locate (leads : a.locate .target start path = .ok place) :
    b.read start path = a.read start path := by
  obtain ⟨entry, real, -⟩ := isReal_of_locate leads
  simp only [read, leads, adds.locate (by simp) leads, bind, Except.bind, real, adds.at? real]

theorem Adds.hasFile (file : a.HasFile place names) : b.HasFile place names := by
  obtain ⟨nonempty, octets, content⟩ := hasFile_iff.mp file
  exact hasFile_iff.mpr ⟨nonempty, octets, adds.at? content⟩

/-- Names lead from a place to a file that was there before or to what is added. -/
theorem Adds.hasFile_before (file : b.HasFile place names) :
    a.HasFile place names ∨ place ++ names = new := by
  by_cases here : place ++ names = new
  · exact .inr here
  · rw [hasFile_iff, adds.same _ here, ← hasFile_iff] at file
    exact .inl file

/-- What is read under the path to a file below a directory stays the same, also where the system does
not accept the path. -/
theorem Adds.read_joinAll (leads : a.locate .target start root = .ok place)
    (file : a.HasFile place names) :
    b.read start (root.joinAll names) = a.read start (root.joinAll names) := by
  cases located : a.locate .target start (root.joinAll names) with
  | ok found => exact adds.read_of_locate located
  | error error =>
    have steps := Path.steps_joinAll (follow_of_locate leads).1 file.isName (hasFile_iff.mp file).1
    have origin : (root.joinAll names).origin start = root.origin start := by
      rw [Path.origin, Path.origin,
        Path.isAbsolute_joinAll (follow_of_locate leads).1 file.isName]
    have followed : b.follow .target linkLimit ((root.joinAll names).origin start)
        (root.joinAll names).steps = a.follow .target linkLimit ((root.joinAll names).origin start)
          (root.joinAll names).steps := by
      rw [steps, origin, follow_way leads file,
        follow_way (adds.locate (by simp) leads) (adds.hasFile file)]
    have same : b.locate .target start (root.joinAll names) = .error error := by
      rw [← located, FileTree.locate, FileTree.locate, followed]
    rw [read_of_error same, read_of_error located]

end Kept

section Added

variable (adds : Adds a b new) (added : b.at? new = some (.file octets))
include adds added

theorem Adds.isDirectory_eq (place : Place) : b.isDirectory place = a.isDirectory place := by
  by_cases here : place = new
  · simp [here, FileTree.isDirectory, added, adds.nothing]
  · rw [FileTree.isDirectory, FileTree.isDirectory, adds.same place here]

/-- A way was there before, or it ends at the file and was a way for writing it. -/
theorem Adds.way_before (way : Way b .target fits links place steps found) :
    Way a .target fits links place steps found ∨
      found = new ∧ Way a .writing fits links place steps found := by
  have outside : a.isDirectory new = false := by simp [FileTree.isDirectory, adds.nothing]
  induction way with
  | here => exact .inl .here
  | stay inside _ ih =>
    rw [adds.isDirectory_eq added] at inside
    exact ih.imp (.stay inside) (And.imp_right (.stay inside))
  | slash inside _ ih =>
    rw [adds.isDirectory_eq added] at inside
    exact ih.imp (.slash inside) (And.imp_right (.slash inside))
  | up inside _ ih =>
    rw [adds.isDirectory_eq added] at inside
    exact ih.imp (.up inside) (And.imp_right (.up inside))
  | @into _ place found name rest entry inside short fit there noLink _ onward ih =>
    rw [adds.isDirectory_eq added] at inside
    by_cases here : place ++ [name] = new
    · -- The file is no directory, so this is the last step.
      cases rest with
      | nil =>
        cases onward
        exact .inr ⟨here, .fresh inside short fit (here ▸ adds.nothing) rfl⟩
      | cons step rest =>
        have stuck : b.isDirectory (place ++ [name]) = false := by
          rw [adds.isDirectory_eq added, here, outside]
        cases onward <;> simp_all
    · rw [adds.same _ here] at there
      refine ih.imp (.into inside short fit there noLink (by simp)) fun ⟨last, written⟩ =>
        ⟨last, .into inside short fit there noLink ?_ written⟩
      rintro ⟨-, rfl⟩
      have directory := written.isDirectory_of_slash rfl
      rw [last, outside] at directory
      cases directory
  | @through _ place found name target rest inside short fit link more _ _ ih =>
    rw [adds.isDirectory_eq added] at inside
    have here : place ++ [name] ≠ new := by
      intro here
      rw [here, added] at link
      cases link
    rw [adds.same _ here] at link
    refine ih.imp (.through inside short fit link more (by simp)) fun ⟨last, written⟩ =>
      ⟨last, .through inside short fit link (by simp) ?_ written⟩
    rintro ⟨-, rfl⟩
    have directory := written.isDirectory_of_slash (by simp)
    rw [last, outside] at directory
    cases directory
  | link _ _ _ _ itself => cases itself
  | fresh _ _ _ _ writing => cases writing

/-- A path leads to the same as before, or to the file, which could be written under this path. -/
theorem Adds.locate_before (leads : b.locate .target start path = .ok place) :
    a.locate .target start path = .ok place ∨
      place = new ∧ a.locate .writing start path = .ok new := by
  obtain ⟨noZero, nonempty, pathFits, way⟩ := locate_eq_ok_iff.mp leads
  refine (adds.way_before added way).imp (fun before => ?_) ?_
  · exact locate_eq_ok_iff.mpr ⟨noZero, nonempty, pathFits, before⟩
  · rintro ⟨rfl, written⟩
    exact ⟨rfl, locate_eq_ok_iff.mpr ⟨noZero, nonempty, pathFits, written⟩⟩

/-- A path under which the file could not be written leads to the same as before. -/
theorem Adds.locate_eq_ok_iff (elsewhere : a.locate .writing start path ≠ .ok new) :
    b.locate .target start path = .ok place ↔ a.locate .target start path = .ok place := by
  constructor
  · intro leads
    exact (adds.locate_before added leads).resolve_right fun written => elsewhere written.2
  · exact adds.locate (by simp)

/-- Only a path that leads to the new place can tell the trees apart. -/
theorem Adds.isFileAt_eq (elsewhere : a.locate .writing start path ≠ .ok new) :
    b.isFileAt start path = a.isFileAt start path := by
  rw [Bool.eq_iff_iff, isFileAt_iff, isFileAt_iff]
  simp only [adds.locate_eq_ok_iff added elsewhere]
  constructor
  · rintro ⟨place, content, leads, there⟩
    obtain ⟨entry, real, -⟩ := isReal_of_locate leads
    rw [adds.at? real] at there
    exact ⟨place, content, leads, real.trans there⟩
  · rintro ⟨place, content, leads, there⟩
    exact ⟨place, content, leads, adds.at? there⟩

/-- What can be read under a path stays the same, unless the file is what can be read there now. -/
theorem Adds.toOption_read_eq_or (start : Place) (path : Path) :
    (b.read start path).toOption = (a.read start path).toOption ∨
      (a.read start path).toOption = none ∧ (b.read start path).toOption = some octets := by
  cases located : a.locate .target start path with
  | ok place => exact .inl (by rw [adds.read_of_locate located])
  | error error =>
    rw [read_of_error located]
    cases after : b.locate .target start path with
    | error other =>
      rw [read_of_error after]
      exact .inl rfl
    | ok place =>
      obtain before | ⟨rfl, -⟩ := adds.locate_before added after
      · cases before.symm.trans located
      · rw [FileTree.read_of_locate after added]
        exact .inr ⟨rfl, rfl⟩

/-- Nothing is ignored because of the file unless it is found as an ignore file. -/
theorem Adds.load_eq (elsewhere : a.locate .writing start path ≠ .ok new) :
    Ignore.File.load b start path = Ignore.File.load a start path := by
  cases located : a.locate .target start path with
  | ok place =>
    rw [Ignore.File.load, Ignore.File.load, adds.read_of_locate located]
  | error error =>
    cases after : b.locate .target start path with
    | ok place =>
      rw [adds.locate_eq_ok_iff added elsewhere, located] at after
      cases after
    | error other =>
      rw [Ignore.File.load, Ignore.File.load, read_of_error located, read_of_error after]

end Added

end FileTree

namespace Discovery

open FileTree

variable {w : Workspace} {tree : FileTree} {new place : Place} {octets : List UInt8}
  {settings : ScanSettings} {root path : Path} {found : List Path}

/-- The paths under which a scan looks for ignore files in a directory. -/
def ignorePathsIn (directory : Path) : List Path :=
  Ignore.Kind.all.map fun kind => directory.join kind.fileName

/-- The paths under which the scan of a root that lies at a place looks for ignore files: in the
directory, in those below and above it, and at the user's. -/
def ignorePaths (w : Workspace) (settings : ScanSettings) (root : Path) (place : Place) :
    List Path :=
  if settings.respectGitignore && w.tree.isDirectory place then
    (([] :: directoriesBelow w.tree place).map root.joinAll ++
        (placesAbove place).map FileTree.absolute).flatMap ignorePathsIn ++
      (Ignore.Global.path? w).toList
  else []

theorem mem_ignorePathsIn (directory : Path) (kind : Ignore.Kind) :
    directory.join kind.fileName ∈ ignorePathsIn directory :=
  List.mem_map_of_mem (by cases kind <;> decide)

/-- Where ignore files count, they are those of the directories that are walked, those of the
directories above, and the user's. -/
theorem mem_ignorePaths_iff (on : settings.respectGitignore = true)
    (isDirectory : w.tree.isDirectory place = true) :
    path ∈ ignorePaths w settings root place ↔
      (∃ names ∈ [] :: directoriesBelow w.tree place, path ∈ ignorePathsIn (root.joinAll names)) ∨
        (∃ above ∈ placesAbove place, path ∈ ignorePathsIn (FileTree.absolute above)) ∨
          Ignore.Global.path? w = some path := by
  rw [ignorePaths, on, isDirectory, Bool.and_true, if_pos rfl, List.mem_append, List.flatMap_append,
    List.mem_append, List.flatMap_map, List.flatMap_map, List.mem_flatMap, List.mem_flatMap,
    Option.mem_toList, or_assoc]

/-- The names that end the paths of ignore files, where no other one is named for the user. -/
def ignoreNames : List String := [".ignore", ".gitignore", "exclude", "ignore"]

theorem getLast?_steps_of_mem_ignorePathsIn {directory : Path}
    (listed : path ∈ ignorePathsIn directory) :
    ∃ name ∈ ignoreNames, path.steps.getLast? = some (.into name) := by
  obtain ⟨kind, -, rfl⟩ := List.mem_map.mp listed
  cases kind with
  | plain =>
    exact ⟨".ignore", by decide, getLast?_steps_join directory (by decide)
      (List.nil_append _).symm (.inl rfl) (by decide)⟩
  | git =>
    exact ⟨".gitignore", by decide, getLast?_steps_join directory (by decide)
      (List.nil_append _).symm (.inl rfl) (by decide)⟩
  | gitExclude =>
    have cut : Ignore.Kind.gitExclude.fileName.toList = ".git/info/".toList ++ "exclude".toList :=
      by decide
    exact ⟨"exclude", by decide,
      getLast?_steps_join directory (by decide) cut (.inr (by decide)) (by decide)⟩

/-- The ignore file of the user is named in a configuration, or it has the usual name. -/
theorem named?_or_getLast?_steps (found : Ignore.Global.path? w = some path) :
    Ignore.Global.named? w = some path ∨ path.steps.getLast? = some (.into "ignore") := by
  rw [Ignore.Global.path?] at found
  cases named : Ignore.Global.named? w with
  | some other =>
    rw [named, Option.some_or] at found
    exact .inl found
  | none =>
    rw [named, Option.none_or] at found
    obtain ⟨directory, -, rfl⟩ := Option.map_eq_some_iff.mp found
    have cut : "git/ignore".toList = "git/".toList ++ "ignore".toList := by decide
    exact .inr (getLast?_steps_join directory (by decide) cut (.inr (by decide)) (by decide))

/-- Apart from the file that the configuration names, ignore files are known by their last name. -/
theorem getLast?_steps_of_mem_ignorePaths (listed : path ∈ ignorePaths w settings root place) :
    Ignore.Global.named? w = some path ∨
      ∃ name ∈ ignoreNames, path.steps.getLast? = some (.into name) := by
  rw [ignorePaths] at listed
  split at listed
  · rcases List.mem_append.mp listed with ofDirectory | ofUser
    · obtain ⟨directory, -, inside⟩ := List.mem_flatMap.mp ofDirectory
      exact .inr (getLast?_steps_of_mem_ignorePathsIn inside)
    · have found := Option.mem_toList.mp ofUser
      exact (named?_or_getLast?_steps found).imp_right fun last => ⟨"ignore", by decide, last⟩
  · cases listed

/-- Where no link is named as an ignore file, what a scan looks for as such a file lies under such a
name, unless a configuration names it. -/
theorem getLast?_of_mem_ignorePaths
    (plain : ∀ directory, ∀ name ∈ ignoreNames, ∀ target,
      w.tree.at? (directory ++ [name]) ≠ some (.link target))
    (listed : path ∈ ignorePaths w settings root place)
    (leads : w.tree.locate .writing w.current path = .ok new) :
    Ignore.Global.named? w = some path ∨ ∃ name ∈ ignoreNames, new.getLast? = some name := by
  refine (getLast?_steps_of_mem_ignorePaths listed).imp_right ?_
  rintro ⟨name, known, last⟩
  obtain ⟨-, -, -, way⟩ := locate_eq_ok_iff.mp leads
  refine ⟨name, known, (way.getLast?_or_link last).resolve_right ?_⟩
  rintro ⟨directory, target, link⟩
  exact plain directory name known target link

section Added

variable (adds : Adds w.tree tree new) (added : tree.at? new = some (.file octets))
include adds added

theorem layer_of_adds {directory : Path}
    (elsewhere : ∀ path ∈ ignorePathsIn directory, w.tree.locate .writing w.current path ≠ .ok new) :
    Ignore.Layer.load { w with tree } directory = Ignore.Layer.load w directory := by
  have file (kind : Ignore.Kind) :
      Ignore.File.load tree w.current (directory.join kind.fileName) =
        Ignore.File.load w.tree w.current (directory.join kind.fileName) :=
    adds.load_eq added (elsewhere _ (mem_ignorePathsIn directory kind))
  simp only [Ignore.Layer.load, file]

theorem mem_directoriesBelow_of_adds (names : List String) :
    names ∈ [] :: directoriesBelow tree place ↔ names ∈ [] :: directoriesBelow w.tree place := by
  have directory := adds.isDirectory_eq added (place ++ names)
  simp only [FileTree.isDirectory, beq_eq_beq] at directory
  simp only [List.mem_cons, mem_directoriesBelow_iff, directory]

/-- The ignore file of the user stays the same, as the file names none if it turns up as a
configuration. -/
theorem path?_of_adds (unnamed : Ignore.Global.excludesFile? octets = none) :
    Ignore.Global.path? { w with tree } = Ignore.Global.path? w := by
  have named : Ignore.Global.namedIn? { w with tree } = Ignore.Global.namedIn? w := by
    funext configuration
    rw [Ignore.Global.namedIn?, Ignore.Global.namedIn?]
    rcases adds.toOption_read_eq_or added w.current configuration with same | ⟨before, after⟩
    · exact congrArg (Option.bind · _) same
    · have nothing : (w.read configuration).toOption = none := before
      have new : ({ w with tree }.read configuration).toOption = some octets := after
      simp [nothing, new, unnamed]
  rw [Ignore.Global.path?, Ignore.Global.path?, Ignore.Global.named?, Ignore.Global.named?, named]

section Ignoring

variable (on : settings.respectGitignore = true) (isDirectory : w.tree.isDirectory place = true)
  (elsewhere : ∀ path ∈ ignorePaths w settings root place,
    w.tree.locate .writing w.current path ≠ .ok new)
include on isDirectory elsewhere

theorem layer_inside_of_adds {names : List String}
    (listed : names ∈ [] :: directoriesBelow w.tree place) :
    Ignore.Layer.load { w with tree } (root.joinAll names) =
      Ignore.Layer.load w (root.joinAll names) := by
  refine layer_of_adds adds added fun path member => elsewhere path ?_
  exact (mem_ignorePaths_iff on isDirectory).mpr (.inl ⟨names, listed, member⟩)

theorem layer_above_of_adds {above : Place} (higher : above ∈ placesAbove place) :
    Ignore.Layer.load { w with tree } (FileTree.absolute above) =
      Ignore.Layer.load w (FileTree.absolute above) := by
  refine layer_of_adds adds added fun path member => elsewhere path ?_
  exact (mem_ignorePaths_iff on isDirectory).mpr (.inr (.inl ⟨above, higher, member⟩))

variable (unnamed : Ignore.Global.excludesFile? octets = none)
include unnamed

theorem global_of_adds :
    (Ignoring.load { w with tree } root place).global = (Ignoring.load w root place).global := by
  rw [Ignoring.load, Ignoring.load, path?_of_adds adds added unnamed]
  cases user : Ignore.Global.path? w with
  | none => rfl
  | some path =>
    have member : path ∈ ignorePaths w settings root place :=
      (mem_ignorePaths_iff on isDirectory).mpr (.inr (.inr user))
    exact congrArg Ignore.File.patterns (adds.load_eq added (elsewhere _ member))

/-- What ignore files say stays the same. -/
theorem reaches_of_adds : (Ignoring.load { w with tree } root place).reaches root place =
    (Ignoring.load w root place).reaches root place := by
  have global := global_of_adds adds added on isDirectory elsewhere unnamed
  have inside (way : List String) :
      ((Ignoring.load { w with tree } root place).inside.find? fun entry => entry.1 == way) =
        (Ignoring.load w root place).inside.find? fun entry => entry.1 == way := by
    rw [Ignoring.load, Ignoring.load, find?_map_names, find?_map_names]
    simp only [mem_directoriesBelow_of_adds adds added]
    split
    · rename_i listed
      rw [layer_inside_of_adds adds added on isDirectory elsewhere listed]
    · rfl
  have above : (Ignoring.load { w with tree } root place).above =
      (Ignoring.load w root place).above :=
    List.map_congr_left fun _ higher =>
      layer_above_of_adds adds added on isDirectory elsewhere higher
  have current : (Ignoring.load { w with tree } root place).current =
    (Ignoring.load w root place).current := rfl
  have verdict : (Ignoring.load { w with tree } root place).verdict? root place =
      (Ignoring.load w root place).verdict? root place := by
    funext names isDirectory
    simp only [Ignoring.verdict?, inside, above, global, current]
  funext names
  simp only [Ignoring.reaches, verdict]

end Ignoring

variable (unnamed : Ignore.Global.excludesFile? octets = none)
include unnamed

/-- What is ignored stays the same, whether ignore files count or not. -/
theorem inEffect_of_adds (isDirectory : w.tree.isDirectory place = true)
    (elsewhere : ∀ path ∈ ignorePaths w settings root place,
      w.tree.locate .writing w.current path ≠ .ok new) :
    (Ignoring.inEffect { w with tree } settings root place).reaches root place =
        (Ignoring.inEffect w settings root place).reaches root place ∧
      (Ignoring.inEffect { w with tree } settings root place).messages =
        (Ignoring.inEffect w settings root place).messages := by
  rw [Ignoring.inEffect, Ignoring.inEffect]
  by_cases on : settings.respectGitignore = true
  · rw [if_pos on, if_pos on]
    refine ⟨reaches_of_adds adds added on isDirectory elsewhere unnamed, ?_⟩
    rw [Ignoring.messages, Ignoring.messages]
    exact congrArg _ (congrArg _ (List.map_congr_left fun _ higher =>
      layer_above_of_adds adds added on isDirectory elsewhere higher))
  · rw [if_neg on, if_neg on]
    exact ⟨rfl, rfl⟩

/-- The file has none of the extensions if it lies below a place. -/
def Unlisted (settings : ScanSettings) (place new : Place) : Prop :=
  ∀ names name, place ++ names ++ [name] = new → hasExtension settings.extensions name = false

/-- A new file that is neither listed nor read as an ignore file leaves the scan as it is. -/
theorem scan_of_adds {patterns : List (List Exclude.Token)}
    (isDirectory : w.tree.isDirectory place = true)
    (elsewhere : ∀ path ∈ ignorePaths w settings root place,
      w.tree.locate .writing w.current path ≠ .ok new)
    (unlisted : Unlisted settings place new) :
    scan tree settings patterns (.inEffect { w with tree } settings root place) root place =
      scan w.tree settings patterns (.inEffect w settings root place) root place := by
  refine eq_scan_of_mem_iff pairwise_scan fun path => mem_scan_iff_isFound.trans ?_
  have reached := (inEffect_of_adds adds added unnamed isDirectory elsewhere).1
  have isFound (names : List String) :
      IsFound tree settings patterns (.inEffect { w with tree } settings root place) root place
          names ↔
        IsFound w.tree settings patterns (.inEffect w settings root place) root place names := by
    constructor
    · rintro ⟨file, ⟨name, last, extension⟩, kept, reaches⟩
      refine ⟨(adds.hasFile_before file).resolve_right fun here => ?_, ⟨name, last, extension⟩,
        kept, by rwa [reached] at reaches⟩
      obtain ⟨front, rfl⟩ := List.getLast?_eq_some_iff.mp last
      rw [unlisted front name (by rw [← here, List.append_assoc])] at extension
      cases extension
    · rintro ⟨file, extension, kept, reaches⟩
      exact ⟨adds.hasFile file, extension, kept, by rwa [reached]⟩
  simp only [isFound]

variable (leads : w.tree.locate .target w.current root = .ok place)
include leads

/-- The same files are found. -/
theorem files_of_adds
    (elsewhere : ∀ path ∈ ignorePaths w settings root place,
      w.tree.locate .writing w.current path ≠ .ok new)
    (unlisted : Unlisted settings place new) :
    files { w with tree } settings root = files w settings root := by
  have alsoLeads : tree.locate .target w.current root = .ok place := adds.locate (by simp) leads
  cases valid : excludes settings.exclude with
  | error error =>
    rw [files, files, filesBy_of_no_excludes valid, filesBy_of_no_excludes valid]
  | ok patterns =>
    obtain ⟨entry, there, noLink⟩ := FileTree.isReal_of_locate leads
    cases entry with
    | file content =>
      rw [files_of_isFile (FileTree.isFileAt_of_locate leads there) valid,
        files_of_isFile (FileTree.isFileAt_of_locate alsoLeads (adds.at? there)) valid]
    | directory =>
      have isDirectory : w.tree.isDirectory place = true := by simp [FileTree.isDirectory, there]
      have after : files { w with tree } settings root = _ :=
        files_of_locate valid alsoLeads (adds.isDirectory isDirectory)
      rw [after, files_of_locate valid leads isDirectory,
        (inEffect_of_adds adds added unnamed isDirectory elsewhere).2,
        scan_of_adds adds added unnamed isDirectory elsewhere unlisted]
    | link target => exact absurd rfl (noLink target)

end Added

section Found

variable (leads : w.tree.locate .target w.current root = .ok place)
  (discovered : files w settings root = .ok found) (member : path ∈ found)
include leads discovered member

/-- What is found is the root, or a file below it. -/
theorem exists_names_of_mem_files :
    path = root ∨ ∃ names, w.tree.HasFile place names ∧ path = root.joinAll names := by
  obtain ⟨patterns, valid⟩ := exists_excludes_of_files discovered
  obtain ⟨entry, there, noLink⟩ := FileTree.isReal_of_locate leads
  cases entry with
  | file content =>
    rw [files_of_isFile (FileTree.isFileAt_of_locate leads there) valid] at discovered
    cases discovered
    exact .inl (List.mem_singleton.mp member)
  | directory =>
    have isDirectory : w.tree.isDirectory place = true := by simp [FileTree.isDirectory, there]
    exact .inr (exists_names_of_files leads isDirectory discovered member)
  | link target => exact absurd rfl (noLink target)

/-- The files that are found read the same when something is added. -/
theorem load_of_adds (adds : Adds w.tree tree new) :
    load { w with tree } root path = load w root path := by
  have read : tree.read w.current path = w.tree.read w.current path := by
    obtain rfl | ⟨names, file, rfl⟩ := exists_names_of_mem_files leads discovered member
    · exact adds.read_of_locate leads
    · exact adds.read_joinAll leads file
  rw [load, load, loadBy, loadBy, Workspace.reader, Workspace.reader, Workspace.read, Workspace.read,
    read]

end Found

end Discovery

namespace Workspace

open FileTree

variable {w : Workspace} {tree : FileTree} {new place : Place} {octets : List UInt8}
  {options : CheckOptions} {settings : Settings}

/-- A check under the same settings comes to the same summary, unless it looks for an ignore file where
the file was put or the file has one of the extensions. -/
theorem summary?_of_adds (adds : Adds w.tree tree new)
    (added : tree.at? new = some (.file octets))
    (unnamed : Ignore.Global.excludesFile? octets = none)
    (leads : w.tree.locate .target w.current (options.root settings) = .ok place)
    (elsewhere : ∀ path ∈ Discovery.ignorePaths w settings.scan (options.root settings) place,
      w.tree.locate .writing w.current path ≠ .ok new)
    (unlisted : Discovery.Unlisted (options.apply settings).scan place new) :
    { w with tree }.summary? options settings = w.summary? options settings := by
  have found : w.leadsTo (options.root settings) = true := leadsTo_of_locate leads
  have alsoFound : { w with tree }.leadsTo (options.root settings) = true :=
    leadsTo_of_locate (adds.locate (by simp) leads)
  have files : Discovery.files { w with tree } (options.apply settings).scan
      (options.root settings) = _ := Discovery.files_of_adds adds added unnamed leads elsewhere unlisted
  rw [summary?_eq, summary?_eq, if_pos found, if_pos alsoFound, files]
  refine bind_congr_of_ok fun set _ => bind_congr_of_ok fun paths discovered => ?_
  have discovered := mapError_eq_ok_iff.mp discovered
  have sources : paths.map (Discovery.load { w with tree } (options.root settings)) =
      paths.map (Discovery.load w (options.root settings)) :=
    List.map_congr_left fun path member =>
      Discovery.load_of_adds leads discovered member adds
  rw [sources]

end Workspace

end LineLint
