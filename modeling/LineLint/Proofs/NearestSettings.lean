import LineLint.Proofs.Writing
import LineLint.Settings.Location

/-! # The nearest settings file

Settings come from the project file in the nearest directory at or above what a path leads to. What
lies further up, and what the user has, does not matter then.
-/

namespace LineLint

/-- The first hit among a list and what it begins with, the longest first, is the longest hit. -/
theorem findSome?_inits_reverse {α β : Type} {f : List α → Option β} {list : List α} {b : β} :
    list.inits.reverse.findSome? f = some b ↔
      ∃ front, front <+: list ∧ f front = some b ∧
        ∀ longer, front <+: longer → longer <+: list → longer ≠ front → f longer = none := by
  induction list using List.reverseRecOn with
  | nil => simp
  | append_singleton list a ih =>
    have order : (list ++ [a]).inits.reverse = (list ++ [a]) :: list.inits.reverse := by
      simp [List.inits_append]
    rw [order, List.findSome?_cons]
    cases hit : f (list ++ [a]) with
    | some c =>
      change some c = some b ↔ _
      constructor
      · rintro ⟨⟩
        refine ⟨list ++ [a], List.prefix_rfl, hit, fun longer low high different => ?_⟩
        exact absurd (high.eq_of_length_le low.length_le) different
      · rintro ⟨front, above, same, longest⟩
        by_cases whole : front = list ++ [a]
        · exact hit.symm.trans (whole ▸ same)
        · have missed := longest _ above List.prefix_rfl (Ne.symm whole)
          rw [hit] at missed
          cases missed
    | none =>
      refine ih.trans ⟨?_, ?_⟩
      · rintro ⟨front, above, same, longest⟩
        refine ⟨front, above.trans (List.prefix_append _ _), same, fun longer low high different => ?_⟩
        rcases List.prefix_concat_iff.mp high with rfl | high
        · exact hit
        · exact longest longer low high different
      · rintro ⟨front, above, same, longest⟩
        rcases List.prefix_concat_iff.mp above with rfl | above
        · rw [hit] at same
          cases same
        · exact ⟨front, above, same, fun longer low high =>
            longest longer low (high.trans (List.prefix_append _ _))⟩

namespace SettingsLocation

open FileTree LineLint.Path

variable {w other : Workspace} {path file : Path} {place directory : Place} {name : String}

/-- A path continued by the name of a project file leads to a file. -/
structure Offers (w : Workspace) (directory : Path) (name : String) : Prop where
  known : name ∈ projectNames
  isFile : w.isFile (directory.join name) = true

/-- In a directory lies a project file, or a link that leads to a file, and the system accepts its
absolute path. -/
structure Holds (w : Workspace) (directory : Place) (name : String) : Prop where
  known : name ∈ projectNames
  isFile : w.tree.isFileAt directory ⟨name⟩ = true
  accepted : Accepts (absolute (directory ++ [name])) (directory ++ [name])

/-- A project file lies in the nearest directory at or above a place that holds one, and has the name
that wins if that directory holds two. -/
structure IsNearest (w : Workspace) (place directory : Place) (name : String) : Prop where
  above : directory <+: place
  holds : Holds w directory name
  wins : Holds w directory "style-lint.toml" → name = "style-lint.toml"
  nearest : ∀ nearer, directory <+: nearer → nearer <+: place → nearer ≠ directory →
    ∀ name, ¬ Holds w nearer name

/-- The path to a project file is the first that the paths above a path as it is written offer. -/
def IsFirstWritten (w : Workspace) (path file : Path) : Prop :=
  ∃ nearer directory further name, path.ancestors = nearer ++ directory :: further ∧
    (∀ other ∈ nearer, ∀ name, ¬ Offers w other name) ∧ Offers w directory name ∧
    (Offers w directory "style-lint.toml" → name = "style-lint.toml") ∧ file = directory.join name

/-- Settings come from the project file if there is one, from the user's file if that is a file, and
from nowhere otherwise. -/
def IsFrom (w : Workspace) (isProjectFile : Path → Prop) : SettingsLocation → Prop
  | explicit _ => False
  | project file => isProjectFile file
  | global file => (∀ other, ¬ isProjectFile other) ∧
      ∃ directory, globalDirectory? w = some directory ∧ file = directory.join globalName ∧
        w.isFile file = true
  | default => (∀ other, ¬ isProjectFile other) ∧
      ∀ directory, globalDirectory? w = some directory →
        w.isFile (directory.join globalName) = false

theorem isName_of_mem_projectNames (known : name ∈ projectNames) : IsName name := by
  revert name
  decide

/-- The visible name is preferred to the hidden one in the same directory. -/
theorem projectFileIn?_eq (w : Workspace) (directory : Path) :
    projectFileIn? w directory =
      if w.isFile (directory.join "style-lint.toml") then some (directory.join "style-lint.toml")
      else if w.isFile (directory.join ".style-lint.toml") then
        some (directory.join ".style-lint.toml")
      else none := by
  rw [projectFileIn?, projectNames, List.map_cons, List.map_singleton, List.find?_cons,
    List.find?_singleton]
  cases w.isFile (directory.join "style-lint.toml") <;> rfl

theorem offers_iff {directory : Path} : Offers w directory name ↔
    (name = "style-lint.toml" ∨ name = ".style-lint.toml") ∧
      w.isFile (directory.join name) = true := by
  constructor
  · rintro ⟨known, isFile⟩
    exact ⟨by simpa [projectNames] using known, isFile⟩
  · rintro ⟨known, isFile⟩
    exact ⟨by simpa [projectNames] using known, isFile⟩

theorem projectFileIn?_eq_none_iff {directory : Path} : projectFileIn? w directory = none ↔
    ∀ name, ¬ Offers w directory name := by
  rw [projectFileIn?_eq]
  simp only [offers_iff]
  split <;> simp_all

/-- The project file of a directory is one that it offers, under the name that wins. -/
theorem projectFileIn?_eq_some_iff {directory : Path} : projectFileIn? w directory = some file ↔
    ∃ name, Offers w directory name ∧
      (Offers w directory "style-lint.toml" → name = "style-lint.toml") ∧
      file = directory.join name := by
  rw [projectFileIn?_eq]
  simp only [offers_iff]
  split
  · rename_i first
    constructor
    · rintro ⟨⟩
      exact ⟨"style-lint.toml", ⟨.inl rfl, first⟩, fun _ => rfl, rfl⟩
    · rintro ⟨name, -, wins, rfl⟩
      rw [wins ⟨.inl trivial, first⟩]
  · rename_i first
    split
    · rename_i second
      constructor
      · rintro ⟨⟩
        exact ⟨_, ⟨.inr rfl, second⟩, fun preferred => absurd preferred.2 first, rfl⟩
      · rintro ⟨name, ⟨rfl | rfl, isFile⟩, -, rfl⟩
        · exact absurd isFile first
        · rfl
    · rename_i second
      constructor
      · rintro ⟨⟩
      · rintro ⟨name, ⟨rfl | rfl, isFile⟩, -, -⟩
        · exact absurd isFile first
        · exact absurd isFile second

section Real

variable (leads : w.tree.locate .target w.current path = .ok place)
include leads

/-- A directory at or above what a path leads to offers what it holds. -/
theorem offers_absolute_iff (above : directory <+: place) :
    Offers w (absolute directory) name ↔ Holds w directory name := by
  have real : w.tree.IsReal directory := by
    obtain ⟨more, rfl⟩ := above
    by_cases last : more = []
    · simpa [last] using isReal_of_locate leads
    · exact isReal_of_isDirectory (isDirectory_of_isReal_append last (isReal_of_locate leads))
  have isFile (known : name ∈ projectNames) : w.isFile ((absolute directory).join name) = true ↔
      Accepts (absolute (directory ++ [name])) (directory ++ [name]) ∧
        w.tree.isFileAt directory ⟨name⟩ = true := by
    have isName := isName_of_mem_projectNames known
    rw [join_absolute real.isName isName, Workspace.isFile, isFileAt_iff, isFileAt_iff]
    simp only [locate_absolute_concat real isName]
    tauto
  constructor
  · rintro ⟨known, file⟩
    obtain ⟨accepted, file⟩ := (isFile known).mp file
    exact ⟨known, file, accepted⟩
  · rintro ⟨known, file, accepted⟩
    exact ⟨known, (isFile known).mpr ⟨accepted, file⟩⟩

/-- Where the canonical form of a path is known, its project file is the nearest. -/
theorem projectFile?_eq_some_iff (known : w.canonical? path ≠ none) :
    projectFile? w path = some file ↔
      ∃ directory name, IsNearest w place directory name ∧ file = absolute (directory ++ [name]) := by
  have real := isReal_of_locate leads
  have offers : ∀ directory, directory <+: place → ∀ name,
      Offers w (absolute directory) name ↔ Holds w directory name :=
    fun directory above name => offers_absolute_iff leads above
  have joined : ∀ directory, directory <+: place → ∀ name, Holds w directory name →
      (absolute directory).join name = absolute (directory ++ [name]) := by
    intro directory above name holds
    exact join_absolute (fun other member => real.isName other (above.subset member))
      (isName_of_mem_projectNames holds.known)
  rw [projectFile?, Workspace.canonical?_eq leads known, Option.getD_some,
    ancestors_absolute real.isName, List.findSome?_map, findSome?_inits_reverse]
  constructor
  · rintro ⟨directory, above, found, longest⟩
    obtain ⟨name, offered, wins, rfl⟩ := projectFileIn?_eq_some_iff.mp found
    have holds := (offers directory above name).mp offered
    refine ⟨directory, name, ⟨above, holds, ?_, ?_⟩, joined directory above name holds⟩
    · exact fun preferred => wins ((offers directory above _).mpr preferred)
    · intro nearer low high different other held
      exact projectFileIn?_eq_none_iff.mp (longest nearer low high different) other
        ((offers nearer high other).mpr held)
  · rintro ⟨directory, name, ⟨above, holds, wins, nearest⟩, rfl⟩
    refine ⟨directory, above, projectFileIn?_eq_some_iff.mpr ⟨name, ?_, ?_, ?_⟩, ?_⟩
    · exact (offers directory above name).mpr holds
    · exact fun preferred => wins ((offers directory above _).mp preferred)
    · exact (joined directory above name holds).symm
    · intro nearer low high different
      exact projectFileIn?_eq_none_iff.mpr fun other offered =>
        nearest nearer low high different other ((offers nearer high other).mp offered)

/-- If a directory at or above what a path leads to holds a project file, one is nearest. -/
theorem exists_isNearest (known : w.canonical? path ≠ none) (above : directory <+: place)
    (holds : Holds w directory name) : ∃ directory name, IsNearest w place directory name := by
  cases project : projectFile? w path with
  | some file =>
    obtain ⟨directory, name, nearest, -⟩ := (projectFile?_eq_some_iff leads known).mp project
    exact ⟨directory, name, nearest⟩
  | none =>
    rw [projectFile?, Workspace.canonical?_eq leads known, Option.getD_some,
      ancestors_absolute (isReal_of_locate leads).isName, List.findSome?_eq_none_iff] at project
    have missed := project (absolute directory) (by simpa using ⟨directory, above, rfl⟩)
    have offered := (offers_absolute_iff leads above).mpr holds
    exact absurd offered (projectFileIn?_eq_none_iff.mp missed name)

end Real

/-- Where the canonical form of a path is not known, the path is taken as it is written. -/
theorem projectFile?_eq_some_iff_of_written (unknown : w.canonical? path = none) :
    projectFile? w path = some file ↔ IsFirstWritten w path file := by
  rw [projectFile?, unknown, Option.getD_none, List.findSome?_eq_some_iff]
  constructor
  · rintro ⟨nearer, directory, further, cut, found, none⟩
    obtain ⟨name, offered, wins, joined⟩ := projectFileIn?_eq_some_iff.mp found
    exact ⟨nearer, directory, further, name, cut,
      fun other member => projectFileIn?_eq_none_iff.mp (none other member), offered, wins, joined⟩
  · rintro ⟨nearer, directory, further, name, cut, none, offered, wins, joined⟩
    exact ⟨nearer, directory, further, cut,
      projectFileIn?_eq_some_iff.mpr ⟨name, offered, wins, joined⟩,
      fun other member => projectFileIn?_eq_none_iff.mpr (none other member)⟩

theorem globalFile?_eq_some_iff : globalFile? w = some file ↔
    ∃ directory, globalDirectory? w = some directory ∧ file = directory.join globalName ∧
      w.isFile file = true := by
  rw [globalFile?, Option.filter_eq_some_iff]
  simp only [Option.map_eq_some_iff]
  constructor
  · rintro ⟨⟨directory, user, rfl⟩, isFile⟩
    exact ⟨directory, user, rfl, isFile⟩
  · rintro ⟨directory, user, rfl, isFile⟩
    exact ⟨⟨directory, user, rfl⟩, isFile⟩

theorem globalFile?_eq_none_iff : globalFile? w = none ↔
    ∀ directory, globalDirectory? w = some directory →
      w.isFile (directory.join globalName) = false := by
  rw [globalFile?]
  cases globalDirectory? w <;> simp

/-- Where the settings for a path come from if no file is asked for. -/
theorem find_none (w : Workspace) (path : Path) : find w path none =
    match projectFile? w path with
    | some file => project file
    | none =>
      match globalFile? w with
      | some file => global file
      | none => default := by
  unfold find
  rfl

/-- Where settings come from is decided by what counts as a project file. -/
theorem find_eq_iff {isProjectFile : Path → Prop} {location : SettingsLocation}
    (decided : ∀ file, projectFile? w path = some file ↔ isProjectFile file) :
    find w path none = location ↔ IsFrom w isProjectFile location := by
  have noProject : (∀ file, ¬ isProjectFile file) ↔ projectFile? w path = none := by
    simp only [← decided, Option.eq_none_iff_forall_ne_some, ne_eq]
  cases location with
  | explicit file =>
    simp only [find_none, IsFrom, iff_false]
    split
    · simp
    · split <;> simp
  | project file =>
    simp only [find_none, IsFrom, ← decided]
    cases projectFile? w path with
    | some other => simp
    | none => cases globalFile? w <;> simp
  | global file =>
    simp only [find_none, IsFrom, noProject, ← globalFile?_eq_some_iff]
    cases projectFile? w path with
    | some other => simp
    | none => cases globalFile? w <;> simp
  | default =>
    simp only [find_none, IsFrom, noProject, ← globalFile?_eq_none_iff]
    cases projectFile? w path with
    | some other => simp
    | none => cases globalFile? w <;> simp

/-- From a place up to a directory above, the same names of project files lead to files in two trees. -/
def SameFiles (a b : FileTree) (place directory : Place) : Prop :=
  ∀ between, directory <+: between → between <+: place → ∀ name ∈ projectNames,
    b.isFileAt between ⟨name⟩ = a.isFileAt between ⟨name⟩

/-- From a place up to a directory above, project files are files in both of two trees or in none, and
no links. -/
def SameKinds (a b : FileTree) (place directory : Place) : Prop :=
  ∀ between, directory <+: between → between <+: place → ∀ name ∈ projectNames,
    (∀ target, a.at? (between ++ [name]) ≠ some (.link target)) ∧
    (∀ target, b.at? (between ++ [name]) ≠ some (.link target)) ∧
    ((∃ octets, b.at? (between ++ [name]) = some (.file octets)) ↔
      ∃ octets, a.at? (between ++ [name]) = some (.file octets))

/-- Without a link of that name, only the entry itself decides. -/
theorem isFileAt_iff_of_no_link {tree : FileTree} (known : name ∈ projectNames)
    (noLink : ∀ target, tree.at? (directory ++ [name]) ≠ some (.link target)) :
    tree.isFileAt directory ⟨name⟩ = true ↔
      ∃ octets, tree.at? (directory ++ [name]) = some (.file octets) := by
  have isName := isName_of_mem_projectNames known
  have accept : ∀ name ∈ projectNames, '\x00' ∉ name.toList ∧ name.utf8ByteSize ≤ nameLimit := by
    decide
  have accepted := accept name known
  simp only [isFileAt_iff, locate_eq_ok_iff, steps_name isName, origin_name isName]
  constructor
  · rintro ⟨place, octets, ⟨-, -, -, way⟩, content⟩
    cases way with
    | into _ _ _ _ _ _ onward =>
      cases onward
      exact ⟨octets, content⟩
    | through _ _ _ link => exact absurd link (noLink _)
    | link _ _ _ link => exact absurd link (noLink _)
    | fresh _ _ _ _ writing => cases writing
  · rintro ⟨octets, content⟩
    refine ⟨directory ++ [name], octets, ⟨accepted.1, isName.1, accepted.2.trans (by decide), ?_⟩,
      content⟩
    have inside : tree.isDirectory directory = true := by
      rw [isDirectory, at?_of_at?_append content]
      rfl
    exact .into inside accepted.2 trivial content (by simp) (by simp) .here

theorem SameKinds.sameFiles {a b : FileTree} (same : SameKinds a b place directory) :
    SameFiles a b place directory := by
  intro between low high name known
  obtain ⟨noLink, alsoNoLink, files⟩ := same between low high name known
  rw [Bool.eq_iff_iff, isFileAt_iff_of_no_link known noLink,
    isFileAt_iff_of_no_link known alsoNoLink, files]

theorem holds_congr {between : Place} (known : name ∈ projectNames →
    other.tree.isFileAt between ⟨name⟩ = w.tree.isFileAt between ⟨name⟩) :
    Holds other between name ↔ Holds w between name := by
  constructor
  · rintro ⟨listed, isFile, accepted⟩
    exact ⟨listed, known listed ▸ isFile, accepted⟩
  · rintro ⟨listed, isFile, accepted⟩
    exact ⟨listed, (known listed).symm ▸ isFile, accepted⟩

/-- What is nearest stays nearest as long as nothing changes from there down. -/
theorem IsNearest.of_sameFiles (nearest : IsNearest w place directory name)
    (same : SameFiles w.tree other.tree place directory) : IsNearest other place directory name := by
  obtain ⟨above, holds, wins, first⟩ := nearest
  have alike : ∀ between, directory <+: between → between <+: place → ∀ name,
      Holds other between name ↔ Holds w between name :=
    fun between low high name => holds_congr (same between low high name)
  refine ⟨above, (alike directory List.prefix_rfl above name).mpr holds, fun preferred => ?_, ?_⟩
  · exact wins ((alike directory List.prefix_rfl above _).mp preferred)
  · intro nearer low high different name held
    exact first nearer low high different name ((alike nearer low high name).mp held)

/-- A file has the settings of its directory. -/
theorem IsNearest.of_file {last : String} {octets : List UInt8}
    (nearest : IsNearest w place directory name)
    (file : w.tree.at? (place ++ [last]) = some (.file octets)) :
    IsNearest w (place ++ [last]) directory name := by
  obtain ⟨above, holds, wins, first⟩ := nearest
  refine ⟨above.trans (List.prefix_append _ _), holds, wins, fun nearer low high different => ?_⟩
  rcases List.prefix_concat_iff.mp high with rfl | high
  · rintro other ⟨known, isFile, -⟩
    have isName := isName_of_mem_projectNames known
    obtain ⟨_, _, leads, -⟩ := isFileAt_iff.mp isFile
    have inside := (way_of_locate_name isName leads).inside
    rw [isDirectory, file] at inside
    cases inside
  · exact first nearer low high different

/-- The nearest project file is where settings come from. -/
theorem IsNearest.find (nearest : IsNearest w place directory name)
    (leads : w.tree.locate .target w.current path = .ok place) (known : w.canonical? path ≠ none) :
    SettingsLocation.find w path none = .project (absolute (directory ++ [name])) :=
  (find_eq_iff fun _ => projectFile?_eq_some_iff leads known).mpr ⟨directory, name, nearest, rfl⟩

end SettingsLocation

/-- The tree of the project file and the link, seen from its root. -/
def Workspace.nest (own : List UInt8) : Workspace := { tree := .nest own, current := [] }

namespace SettingsLocation

open FileTree

variable {own octets : List UInt8} {tree : FileTree}

theorem way_nest (own : List UInt8) : Way (FileTree.nest own) .target HasShortPath linkLimit []
    (Path.steps ⟨"a/b"⟩) ["a", "b"] := by
  have steps : Path.steps ⟨"a/b"⟩ = [.into "a", .into "b"] := by decide
  have short : ∀ place ∈ [["a"], ["a", "b"]], HasShortPath place := by
    unfold HasShortPath
    decide
  rw [steps]
  exact .into rfl (by decide) (short ["a"] (by simp)) rfl nofun (by simp)
    (.into rfl (by decide) (short ["a", "b"] (by simp)) rfl nofun (by simp) .here)

theorem locate_nest (own : List UInt8) :
    (Workspace.nest own).tree.locate .target (Workspace.nest own).current ⟨"a/b"⟩ =
      .ok ["a", "b"] :=
  locate_eq_ok_iff.mpr ⟨by decide, by decide, by decide, (way_nest own).anywhere⟩

theorem canonical?_nest (own : List UInt8) :
    (Workspace.nest own).canonical? ⟨"a/b"⟩ = some (absolute ["a", "b"]) :=
  Workspace.canonical?_of_way (by decide) (by decide) (way_nest own)

/-- The link leads nowhere. -/
theorem isFileAt_nest (own : List UInt8) :
    (FileTree.nest own).isFileAt ["a", "b"] ⟨"style-lint.toml"⟩ = false := by
  refine Bool.eq_false_iff.mpr fun file => ?_
  obtain ⟨place, _, located, -⟩ := isFileAt_iff.mp file
  exact locate_target_nest own place located

/-- The link leads to a file that is put further up. -/
theorem isFileAt_of_adds_nest (adds : Adds (.nest own) tree ["style-lint.toml"])
    (content : tree.at? ["style-lint.toml"] = some (.file octets)) :
    tree.isFileAt ["a", "b"] ⟨"style-lint.toml"⟩ = true := by
  have writes : Writes (.nest own) tree ["style-lint.toml"] octets :=
    ⟨fun entry there => by simp [adds.nothing] at there, content, adds.same⟩
  exact isFileAt_of_locate (writes.locate (locate_writing_nest own)) content

/-- The project file is the nearest one. -/
theorem isNearest_nest (own : List UInt8) :
    IsNearest (.nest own) ["a", "b"] ["a"] "style-lint.toml" := by
  have plain (target : String) : (FileTree.nest own).at? (["a"] ++ ["style-lint.toml"]) ≠
      some (.link target) := by
    change some (Entry.file own) ≠ _
    simp
  have hidden (target : String) : (FileTree.nest own).at? (["a", "b"] ++ [".style-lint.toml"]) ≠
      some (.link target) := by
    change none ≠ _
    simp
  refine ⟨⟨["b"], rfl⟩, ⟨by decide, ?_, by decide, by decide, by decide⟩, fun _ => rfl, ?_⟩
  · exact (isFileAt_iff_of_no_link (by decide) plain).mpr ⟨own, rfl⟩
  · intro nearer low high different name held
    have listed : nearer ∈ ["a", "b"].inits := (List.mem_inits _ _).mpr high
    fin_cases listed
    · exact absurd low (by decide)
    · exact different rfl
    · obtain ⟨known, isFile, -⟩ := held
      fin_cases known
      · exact absurd isFile (by simp [Workspace.nest, isFileAt_nest])
      · obtain ⟨octets, content⟩ := (isFileAt_iff_of_no_link (by decide) hidden).mp isFile
        cases content

/-- A file that is put further up makes the link the nearest one. -/
theorem isNearest_of_adds_nest (adds : Adds (.nest own) tree ["style-lint.toml"])
    (content : tree.at? ["style-lint.toml"] = some (.file octets)) :
    IsNearest { Workspace.nest own with tree } ["a", "b"] ["a", "b"] "style-lint.toml" := by
  refine ⟨List.prefix_rfl, ⟨by decide, isFileAt_of_adds_nest adds content, by decide, by decide,
    by decide⟩, fun _ => rfl, fun nearer low high different => ?_⟩
  exact absurd (high.eq_of_length_le low.length_le) different

theorem find_nest (own : List UInt8) :
    find (.nest own) ⟨"a/b"⟩ none = .project ⟨"/a/style-lint.toml"⟩ :=
  (isNearest_nest own).find (locate_nest own) (by simp [canonical?_nest])

theorem find_of_adds_nest (adds : Adds (.nest own) tree ["style-lint.toml"])
    (content : tree.at? ["style-lint.toml"] = some (.file octets)) :
    find { Workspace.nest own with tree } ⟨"a/b"⟩ none = .project ⟨"/a/b/style-lint.toml"⟩ :=
  (isNearest_of_adds_nest adds content).find (adds.locate (by simp) (locate_nest own))
    (by simp [Workspace.canonical?_of_adds adds (canonical?_nest own)])

/-- Settings come from a file that is asked for, whatever lies there. Otherwise they come from the
nearest project file at or above what the path leads to, from the user's file if there is none, and from
nowhere if that is no file. The path is taken as it is written if its canonical form is not known. What
lies further up than the nearest project file, and what the user has, does not matter, as long as the
path leads to the same place and what lies in between are the same files; adding something changes
nothing about the place. -/
theorem find_follows_nearest {w : Workspace} {path : Path} {place : Place}
    (leads : w.tree.locate .target w.current path = .ok place) :
    (∀ file, find w path (some file) = .explicit file) ∧
    (w.canonical? path = none → ∀ location,
      find w path none = location ↔ IsFrom w (IsFirstWritten w path) location) ∧
    (w.canonical? path ≠ none →
      (∀ location, find w path none = location ↔
        IsFrom w (fun file => ∃ directory name, IsNearest w place directory name ∧
          file = absolute (directory ++ [name])) location) ∧
      (∀ directory name, directory <+: place → Holds w directory name →
        ∃ directory name, IsNearest w place directory name) ∧
      (∀ tree new, Adds w.tree tree new → tree.locate .target w.current path = .ok place ∧
        { w with tree }.canonical? path = w.canonical? path) ∧
      ∀ other directory name, IsNearest w place directory name →
        other.tree.locate .target other.current path = .ok place → other.canonical? path ≠ none →
        SameFiles w.tree other.tree place directory ∨ SameKinds w.tree other.tree place directory →
        find other path none = find w path none) := by
  refine ⟨fun file => rfl, fun unknown location => ?_, fun known => ⟨fun location => ?_, ?_, ?_, ?_⟩⟩
  · exact find_eq_iff fun _ => projectFile?_eq_some_iff_of_written unknown
  · exact find_eq_iff fun _ => projectFile?_eq_some_iff leads known
  · exact fun directory name above holds => exists_isNearest leads known above holds
  · intro tree new adds
    have form := Workspace.canonical?_eq leads known
    exact ⟨adds.locate (by simp) leads, (Workspace.canonical?_of_adds adds form).trans form.symm⟩
  · intro other directory name nearest alsoLeads alsoKnown same
    have sameFiles := same.elim id SameKinds.sameFiles
    rw [nearest.find leads known, (nearest.of_sameFiles sameFiles).find alsoLeads alsoKnown]

/-- The project file above a link that leads nowhere is found, whatever the user has. -/
theorem find_follows_nearest_above_link :
    (Workspace.nest []).tree.locate .target (Workspace.nest []).current ⟨"a/b"⟩ = .ok ["a", "b"] ∧
      find (.nest []) ⟨"a/b"⟩ none = .project ⟨"/a/style-lint.toml"⟩ ∧
      find { Workspace.nest [] with home := { directory := some ⟨"/a"⟩ } } ⟨"a/b"⟩ none =
        .project ⟨"/a/style-lint.toml"⟩ := by
  have known : (Workspace.nest []).canonical? ⟨"a/b"⟩ ≠ none := by simp [canonical?_nest]
  obtain ⟨-, -, decided⟩ := find_follows_nearest (locate_nest [])
  obtain ⟨found, -, -, unmoved⟩ := decided known
  have here : find (.nest []) ⟨"a/b"⟩ none = .project ⟨"/a/style-lint.toml"⟩ :=
    (found _).mpr ⟨["a"], "style-lint.toml", isNearest_nest [], rfl⟩
  refine ⟨locate_nest [], here, ?_⟩
  rw [unmoved { Workspace.nest [] with home := { directory := some ⟨"/a"⟩ } } ["a"] "style-lint.toml"
    (isNearest_nest []) (locate_nest []) known (.inl fun _ _ _ _ _ => rfl)]
  exact here

/-- A project file further up than the nearest one counts if a link that is nearer leads to it. -/
theorem farther_project_file_counts : ¬ ∀ (w : Workspace) (tree : FileTree) (path : Path)
    (place directory further : Place) (name : String),
    w.tree.locate .target w.current path = .ok place → IsNearest w place directory name →
    further <+: directory → further ≠ directory → Adds w.tree tree (further ++ [name]) →
    find { w with tree } path none = find w path none := by
  intro unmoved
  obtain ⟨tree, done⟩ : ∃ tree, (FileTree.nest []).put? [] "style-lint.toml" (.file []) =
      some tree := exists_put? rfl (by decide) (by decide) _
  have adds : Adds (.nest []) tree ["style-lint.toml"] :=
    ⟨rfl, fun other different => at?_of_put?_of_ne done different⟩
  have same := unmoved (.nest []) tree ⟨"a/b"⟩ ["a", "b"] ["a"] [] "style-lint.toml"
    (locate_nest []) (isNearest_nest []) List.nil_prefix (by simp) adds
  rw [find_nest, find_of_adds_nest adds (at?_of_put? done)] at same
  exact absurd same (by decide)

end SettingsLocation

end LineLint
