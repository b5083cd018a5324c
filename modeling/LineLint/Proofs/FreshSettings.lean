import LineLint.Proofs.Additions
import LineLint.Proofs.Creations
import LineLint.Proofs.ExitStatus
import LineLint.Proofs.NearestSettings
import LineLint.Proofs.StarterSettings

/-! # Checks before and after settings are created

A new settings file says what is set anyway. So where nothing was set, a check in the working directory
or below comes to the same before and after the file is created, unless a link that leads to the file
turns it into something else: into settings that are nearer than those that counted before, or into an
ignore file.
-/

namespace LineLint

open FileTree Settings

namespace SettingsLocation

variable {w : Workspace} {tree : FileTree} {new place : Place} {path other file : Path}
  {octets : List UInt8}

/-- Settings that are not asked for come from a file. -/
theorem isFile_of_find (found : (find w path none).path? = some file) : w.isFile file = true := by
  rw [find_none] at found
  split at found
  · rename_i project
    cases found
    obtain ⟨directory, -, inside⟩ := List.exists_of_findSome?_eq_some project
    obtain ⟨name, offered, -, rfl⟩ := projectFileIn?_eq_some_iff.mp inside
    exact offered.isFile
  · split at found
    · rename_i user
      cases found
      obtain ⟨-, -, -, isFile⟩ := globalFile?_eq_some_iff.mp user
      exact isFile
    · cases found

theorem loadFile_of_read {text : List Char} {settings : Settings}
    (read : w.read path = .ok (Text.Utf8.encode text)) (valid : ofText? text = some settings) :
    loadFile w path = .ok settings := by
  simp only [loadFile, read, Text.Utf8.decode?_encode, valid]

/-- Paths that lead to the same place get their settings from the same file. -/
theorem find_eq_of_locate (leads : w.tree.locate .target w.current path = .ok place)
    (known : w.canonical? path ≠ none)
    (alsoLeads : w.tree.locate .target w.current other = .ok place)
    (alsoKnown : w.canonical? other ≠ none) : find w path none = find w other none :=
  (find_eq_iff fun _ => projectFile?_eq_some_iff leads known).mpr
    ((find_eq_iff fun _ => projectFile?_eq_some_iff alsoLeads alsoKnown).mp rfl)

theorem eq_none_of_find_default (unset : find w path none = .default) :
    projectFile? w path = none ∧ globalFile? w = none := by
  rw [find_none] at unset
  split at unset
  · cases unset
  · rename_i project
    split at unset
    · cases unset
    · rename_i user
      exact ⟨project, user⟩

section Adds

variable (adds : Adds w.tree tree new)
include adds

theorem loadFile_of_isFile (isFile : w.isFile file = true) :
    loadFile { w with tree } file = loadFile w file := by
  obtain ⟨place, octets, leads, -⟩ := isFileAt_iff.mp isFile
  have read : { w with tree }.read file = w.read file := adds.read_of_locate leads
  rw [loadFile, loadFile, read]

/-- Where nothing was set, settings come afterwards from no file that was there. -/
theorem isFile_eq_false_of_find (unset : find w path none = .default)
    (known : w.canonical? path ≠ none)
    (found : (find { w with tree } path none).path? = some file) : w.isFile file = false := by
  obtain ⟨noProject, noUser⟩ := eq_none_of_find_default unset
  obtain ⟨form, known⟩ := Option.ne_none_iff_exists'.mp known
  rw [find_none] at found
  split at found
  · rename_i project
    cases found
    rw [projectFile?, Workspace.canonical?_of_adds adds known] at project
    rw [projectFile?, known, List.findSome?_eq_none_iff] at noProject
    obtain ⟨directory, above, inside⟩ := List.exists_of_findSome?_eq_some project
    obtain ⟨name, offered, -, rfl⟩ := projectFileIn?_eq_some_iff.mp inside
    refine Bool.eq_false_iff.mpr fun isFile => ?_
    exact projectFileIn?_eq_none_iff.mp (noProject directory above) name ⟨offered.known, isFile⟩
  · split at found
    · rename_i user
      cases found
      obtain ⟨directory, isUser, rfl, -⟩ := globalFile?_eq_some_iff.mp user
      exact globalFile?_eq_none_iff.mp noUser directory isUser
    · cases found

end Adds

section Starter

variable (adds : Adds w.tree tree new)
  (added : tree.at? new = some (.file (Text.Utf8.encode starter.toList)))
include adds added

/-- A path that led to no file leads to the starter file if it leads to a file afterwards. -/
theorem loadFile_starter (isFile : { w with tree }.isFile file = true)
    (before : w.isFile file = false) : loadFile { w with tree } file = .ok starterSettings := by
  obtain ⟨place, octets, leads, content⟩ := isFileAt_iff.mp isFile
  rcases adds.locate_before added leads with unmoved | ⟨rfl, -⟩
  · obtain ⟨entry, real, -⟩ := isReal_of_locate unmoved
    rw [adds.at? real] at content
    have isFile : w.isFile file = true := isFileAt_of_locate unmoved (real.trans content)
    rw [isFile] at before
    cases before
  · have read : { w with tree }.read file = .ok (Text.Utf8.encode starter.toList) :=
      read_of_locate leads added
    exact loadFile_of_read read ofText?_starter

/-- Where nothing was set, nothing is set afterwards, or the starter settings are. -/
theorem load_of_default (unset : find w path none = .default)
    (known : w.canonical? path ≠ none) :
    (find { w with tree } path none).load { w with tree } = .ok .default ∨
      (find { w with tree } path none).load { w with tree } = .ok starterSettings := by
  rw [load]
  cases found : (find { w with tree } path none).path? with
  | none => exact .inl rfl
  | some file =>
    exact .inr (loadFile_starter adds added (isFile_of_find found)
      (isFile_eq_false_of_find adds unset known found))

end Starter

end SettingsLocation

namespace Settings

open Discovery SettingsLocation

variable {w after : Workspace} {options : CheckOptions} {settings : Settings} {tree : FileTree}
  {place : Place} {names : List String} {force : Bool}

def newPlace (w : Workspace) : Place := w.current ++ ["style-lint.toml"]

/-- A check is asked for in the working directory, by no path at all, or for what lies there under some
names, by a path whose canonical form is known. -/
def ChecksBelow (w : Workspace) (options : CheckOptions) (names : List String) : Prop :=
  match options.path with
  | none => names = []
  | some path => w.tree.locate .target w.current path = .ok (w.current ++ names) ∧
      w.canonical? path ≠ none

/-- No link leads from a name under which a check looks for settings to where a new settings file goes,
from the path to what counted before, nor one from a name under which it looks for an ignore file. -/
structure Unlinked (w : Workspace) (options : CheckOptions) (place : Place) : Prop where
  settings : ∀ directory name, IsNearest w place directory name →
    ∀ nearer, directory <+: nearer → nearer <+: place → ∀ other ∈ projectNames,
      w.tree.locate .writing nearer ⟨other⟩ ≠ .ok (newPlace w)
  ignoring : ∀ settings, (find w options.project none).load w = .ok settings →
    ∀ path ∈ ignorePaths w settings.scan options.project place,
      w.tree.locate .writing w.current path ≠ .ok (newPlace w)

/-- A file is created in a directory. -/
theorem Creates.isDirectory (creates : Creates w after place) :
    w.tree.isDirectory w.current = true :=
  (way_of_locate_name (by decide) creates.leads).inside

/-- A check that is asked for below the working directory has a path that leads there. -/
theorem ChecksBelow.leads (below : ChecksBelow w options names)
    (inside : w.tree.isDirectory w.current = true) :
    w.tree.locate .target w.current options.project = .ok (w.current ++ names) ∧
      w.canonical? options.project ≠ none := by
  rw [ChecksBelow] at below
  split at below
  · rename_i absent
    have project : options.project = ⟨"."⟩ := by rw [CheckOptions.project, absent]; rfl
    rw [project, below, List.append_nil, Workspace.canonical?_current inside]
    refine ⟨locate_eq_ok_iff.mpr ⟨by decide, by decide, by decide, ?_⟩, by simp⟩
    have steps : Path.steps ⟨"."⟩ = [.stay] := by decide
    have origin : Path.origin ⟨"."⟩ w.current = w.current := rfl
    rw [steps, origin]
    exact .stay inside .here
  · rename_i path given
    have project : options.project = path := by rw [CheckOptions.project, given]; rfl
    rwa [project]

/-- In the working directory nothing is set for a check either. -/
theorem find_of_current (inside : w.tree.isDirectory w.current = true)
    (unset : find w ⟨"."⟩ none = .default) (below : ChecksBelow w options []) :
    find w options.project none = .default := by
  have here : ChecksBelow w {} [] := rfl
  obtain ⟨leads, known⟩ := below.leads inside
  obtain ⟨alsoLeads, alsoKnown⟩ := here.leads inside
  exact (find_eq_of_locate leads known alsoLeads alsoKnown).trans unset

/-- The new file is not among the files of a check without its extension. -/
theorem unlisted_newPlace
    (foreign : ∀ extension ∈ options.extensions, Text.equalUpToCase
      (CheckOptions.withoutDots extension).toList "toml".toList = false)
    (plain : names = [] → settings.scan.extensions = ["cs"]) :
    Unlisted (options.apply settings).scan (w.current ++ names) (newPlace w) := by
  intro front name here
  rw [newPlace, List.append_assoc, List.append_assoc, List.append_cancel_left_eq,
    ← List.append_assoc, List.append_eq_singleton_iff] at here
  rcases here with ⟨none, name⟩ | ⟨-, none⟩
  · obtain ⟨rfl, rfl⟩ := List.append_eq_nil_iff.mp none
    obtain rfl := List.singleton_inj.mp name
    have extension : extension? "style-lint.toml" = some "toml".toList := by decide
    rw [hasExtension, extension, Option.any_some, List.any_eq_false]
    simp only [CheckOptions.apply]
    split
    · rw [plain rfl]
      decide
    · intro wanted member
      obtain ⟨extension, given, rfl⟩ := List.mem_map.mp member
      exact Bool.eq_false_iff.mp (foreign extension given)
  · cases none

/-- The names under which a check looks for settings and for ignore files. -/
def watchedNames : List String := projectNames ++ ignoreNames

/-- Where no link has one of the names under which a check looks for settings and for ignore files, none
leads to where a new settings file goes, unless a configuration of git names a path that does. -/
theorem Unlinked.of_plain (inside : w.tree.isDirectory w.current = true)
    (unset : find w ⟨"."⟩ none = .default)
    (plain : ∀ directory, ∀ name ∈ watchedNames, ∀ target,
      w.tree.at? (directory ++ [name]) ≠ some (.link target))
    (elsewhere : ∀ path, Ignore.Global.named? w = some path →
      w.tree.locate .writing w.current path ≠ .ok (newPlace w)) :
    Unlinked w options place := by
  constructor
  · intro directory name nearest nearer low high other known written
    have isName := isName_of_mem_projectNames known
    have here : newPlace w = nearer ++ [other] := eq_of_locate_writing isName written
      (plain nearer other (List.mem_append_left _ known))
    obtain ⟨rfl, -⟩ := List.append_inj' here rfl
    -- What counts there would count in the working directory.
    have checks : ChecksBelow w {} [] := rfl
    obtain ⟨leads, alsoKnown⟩ := checks.leads inside
    rw [List.append_nil] at leads
    obtain ⟨directory, name, nearest⟩ := exists_isNearest leads alsoKnown low nearest.holds
    cases (nearest.find leads alsoKnown).symm.trans unset
  · intro settings _ path listed written
    have noLink : ∀ directory, ∀ name ∈ ignoreNames, ∀ target,
        w.tree.at? (directory ++ [name]) ≠ some (.link target) :=
      fun directory name known => plain directory name (List.mem_append_right _ known)
    obtain named | ⟨name, known, last⟩ := getLast?_of_mem_ignorePaths noLink listed written
    · exact elsewhere path named written
    rw [newPlace, List.getLast?_concat] at last
    obtain rfl := Option.some.inj last
    exact absurd known (by decide)

section Creation

variable (adds : Adds w.tree tree (newPlace w))
  (added : tree.at? (newPlace w) = some (.file (Text.Utf8.encode starter.toList)))
  (inside : w.tree.isDirectory w.current = true) (unset : find w ⟨"."⟩ none = .default)
  (below : ChecksBelow w options names)
  (foreign : ∀ extension ∈ options.extensions, Text.equalUpToCase
    (CheckOptions.withoutDots extension).toList "toml".toList = false)
  (unlinked : Unlinked w options (w.current ++ names))
include adds added inside unset below unlinked

section Summary

include foreign

/-- Under the settings that counted before, a check comes to the same summary. -/
theorem summary?_of_creation
    (loaded : (find w options.project none).load w = .ok settings) :
    { w with tree }.summary? options settings = w.summary? options settings := by
  have plain : names = [] → settings = .default := by
    rintro rfl
    rw [find_of_current inside unset below] at loaded
    exact (Except.ok.inj loaded).symm
  have root : options.root settings = options.project := by
    rw [CheckOptions.root, CheckOptions.project]
    cases absent : options.path with
    | some path => rfl
    | none =>
      rw [ChecksBelow, absent] at below
      rw [plain below]
      rfl
  have leads := (below.leads inside).1
  rw [← root] at leads
  refine Workspace.summary?_of_adds adds added excludesFile?_starter leads ?_
    (unlisted_newPlace foreign fun here => by rw [plain here]; rfl)
  rw [root]
  exact unlinked.ignoring settings loaded

end Summary

/-- A check has the same settings as before, or the starter settings where nothing was set. -/
theorem load_of_creation :
    (find { w with tree } options.project none).load { w with tree } =
        (find w options.project none).load w ∨
      find w options.project none = .default ∧
        (find { w with tree } options.project none).load { w with tree } =
          .ok starterSettings := by
  obtain ⟨leads, known⟩ := below.leads inside
  have alsoLeads : tree.locate .target w.current options.project = .ok (w.current ++ names) :=
    adds.locate (by simp) leads
  obtain ⟨form, canonical⟩ := Option.ne_none_iff_exists'.mp known
  have alsoKnown : { w with tree }.canonical? options.project ≠ none := by
    simp [Workspace.canonical?_of_adds adds canonical]
  by_cases some : ∃ directory name, IsNearest w (w.current ++ names) directory name
  · obtain ⟨directory, name, nearest⟩ := some
    have sameFiles : SameFiles w.tree tree (w.current ++ names) directory :=
      fun between low high other listed =>
        adds.isFileAt_eq added (unlinked.settings directory name nearest between low high other listed)
    have before := nearest.find leads known
    have after : find { w with tree } options.project none = _ :=
      (nearest.of_sameFiles sameFiles).find alsoLeads alsoKnown
    have isFile : w.isFile (absolute (directory ++ [name])) = true :=
      isFile_of_find (congrArg path? before)
    rw [before, after]
    exact .inl (loadFile_of_isFile adds isFile)
  · have before : find w options.project none = .default := by
      refine (find_eq_iff fun _ => projectFile?_eq_some_iff leads known).mpr ⟨?_, ?_⟩
      · rintro other ⟨directory, name, nearest, -⟩
        exact some ⟨directory, name, nearest⟩
      · exact globalFile?_eq_none_iff.mp (eq_none_of_find_default unset).2
    rcases load_of_default adds added before known with same | starter
    · rw [before]
      exact .inl same
    · exact .inr ⟨before, starter⟩

include foreign

/-- A check comes to the same. -/
theorem check_of_creation : { w with tree }.check options none = w.check options none := by
  rcases load_of_creation adds added inside unset below unlinked with same | ⟨default, starter⟩
  · rw [Workspace.check_eq, Workspace.check_eq, same]
    refine bind_congr_of_ok fun settings loaded => ?_
    have loaded := mapError_eq_ok_iff.mp loaded
    rw [summary?_of_creation adds added inside unset below foreign unlinked loaded]
  · have loaded : (find w options.project none).load w = .ok .default := by rw [default]; rfl
    have summary := summary?_of_creation adds added inside unset below foreign unlinked loaded
    let after : Workspace := { w with tree }
    have alike : after.summary? options starterSettings = after.summary? options .default :=
      (runAlike_starter.checks options).summary after.disk
    rw [Workspace.check_eq, Workspace.check_eq, starter, loaded]
    change after.summary? options starterSettings >>= _ = w.summary? options .default >>= _
    rw [alike, summary]
    rfl

end Creation

end Settings

namespace Program

open Discovery SettingsLocation

variable {w : Workspace} {force : Bool}

/-- A call that succeeds where no such file is there adds the starter file. -/
theorem adds_of_createCall (done : (createCall w force).status = .success)
    (absent : w.tree.at? (newPlace w) = none) :
    w.tree.isDirectory w.current = true ∧ ∃ tree,
      (createCall w force).workspace = { w with tree } ∧ Adds w.tree tree (newPlace w) ∧
        tree.at? (newPlace w) = some (.file (Text.Utf8.encode starter.toList)) := by
  rcases createCall_cases w force with ⟨-, -, -, place, creates⟩ | ⟨-, failed, -⟩
  · have here : place = newPlace w := by
      refine eq_of_locate_writing (by decide) creates.leads fun target link => ?_
      cases absent.symm.trans link
    rw [here] at creates
    exact ⟨creates.isDirectory, _, creates.rest, creates.writes.adds absent, creates.writes.content⟩
  · rw [failed] at done
    cases done

theorem perform_of_ok {options : CheckOptions} {file : Option Path} {status : Status} {text : String}
    (checked : w.check options file = .ok (status, text)) :
    perform w ⟨.check options, file⟩ = printing w status text := by
  rw [perform]
  dsimp only
  rw [checked]

theorem perform_of_error {options : CheckOptions} {file : Option Path} {error : CheckError}
    (failed : w.check options file = .error error) :
    perform w ⟨.check options, file⟩ = failing w error.chain := by
  rw [perform]
  dsimp only
  rw [failed]

/-- The starter file is read as settings that run like those where nothing is set. So in a directory
where no such file lies and nothing is set, no check there or below changes when the file is created,
unless it asks for files of this kind or a link turns the file into something else. Where no link has one
of the names under which a check looks for settings and for ignore files, none does. -/
theorem creation_changes_no_check :
    (∃ settings, ofText? starter.toList = some settings ∧ settings.RunAlike .default ∧
      ∀ w root, Discovery.files w settings.scan root =
        Discovery.files w Settings.default.scan root) ∧
    (∀ (w : Workspace) (options : CheckOptions) (force : Bool) (names : List String),
      (createCall w force).status = .success → w.tree.at? (newPlace w) = none →
      find w ⟨"."⟩ none = .default → ChecksBelow w options names →
      (∀ extension ∈ options.extensions, Text.equalUpToCase
        (CheckOptions.withoutDots extension).toList "toml".toList = false) →
      Unlinked w options (w.current ++ names) →
      perform (createCall w force).workspace ⟨.check options, none⟩ =
        { perform w ⟨.check options, none⟩ with workspace := (createCall w force).workspace }) ∧
    ∀ (w : Workspace) (options : CheckOptions) (force : Bool) (names : List String),
      (createCall w force).status = .success → w.tree.at? (newPlace w) = none →
      find w ⟨"."⟩ none = .default →
      (∀ directory, ∀ name ∈ watchedNames, ∀ target,
        w.tree.at? (directory ++ [name]) ≠ some (.link target)) →
      (∀ path, Ignore.Global.named? w = some path →
        w.tree.locate .writing w.current path ≠ .ok (newPlace w)) →
      Unlinked w options (w.current ++ names) := by
  have scan : starterSettings.scan = Settings.default.scan := rfl
  refine ⟨⟨starterSettings, ofText?_starter, runAlike_starter, fun w root => by rw [scan]⟩, ?_, ?_⟩
  · intro w options force names done absent unset below foreign unlinked
    obtain ⟨inside, tree, after, adds, added⟩ := adds_of_createCall done absent
    have same := check_of_creation adds added inside unset below foreign unlinked
    rw [after]
    cases before : w.check options none with
    | ok outcome => rw [perform_of_ok before, perform_of_ok (same.trans before)]; rfl
    | error error => rw [perform_of_error before, perform_of_error (same.trans before)]; rfl
  · intro w options force names done absent unset plain elsewhere
    exact .of_plain (adds_of_createCall done absent).1 unset plain elsewhere

/-- In a root without project files nothing is set. -/
theorem find_root {tree : FileTree} (bare : ∀ name ∈ projectNames, tree.at? [name] = none) :
    find { tree, current := [] } ⟨"."⟩ none = .default := by
  have below : ChecksBelow { tree, current := [] } {} [] := rfl
  obtain ⟨leads, known⟩ := below.leads rfl
  refine (find_eq_iff fun _ => projectFile?_eq_some_iff leads known).mpr ⟨?_, nofun⟩
  rintro file ⟨directory, name, ⟨above, ⟨listed, isFile, -⟩, -, -⟩, -⟩
  obtain rfl := List.prefix_nil.mp above
  have nothing : tree.at? ([] ++ [name]) = none := bare name listed
  have noLink : ∀ target, tree.at? ([] ++ [name]) ≠ some (.link target) := by
    intro target
    rw [nothing]
    exact nofun
  obtain ⟨octets, content⟩ := (isFileAt_iff_of_no_link listed noLink).mp isFile
  cases nothing.symm.trans content

theorem createCall_root {tree : FileTree} (bare : tree.at? ["style-lint.toml"] = none) :
    (createCall { tree, current := [] } true).status = .success := by
  have leads : tree.locate .writing [] fileName = .ok ["style-lint.toml"] := by
    refine locate_eq_ok_iff.mpr ⟨by decide, by decide, by decide, ?_⟩
    rw [fileName, steps_name (by decide), origin_name (by decide)]
    exact .fresh rfl (by decide) trivial bare rfl
  have writable : IsWritable { tree, current := [] } := ⟨["style-lint.toml"], leads, by simp [bare]⟩
  rcases createCall_cases { tree, current := [] } true with ⟨-, -, done, -⟩ | ⟨stuck, -, -⟩
  · exact done
  · exact absurd ⟨.inl rfl, writable⟩ stuck

theorem bare_nest (own : List UInt8) :
    ∀ name ∈ projectNames, (FileTree.nest own).at? [name] = none := by
  intro name known
  fin_cases known <;> rfl

/-- The link of the tree has the name of a settings file. -/
theorem name_of_link_nest {own : List UInt8} {directory : Place} {name target : String}
    (link : (FileTree.nest own).at? (directory ++ [name]) = some (.link target)) :
    name = "style-lint.toml" := by
  have listed := mem_of_at? (by simp) link
  have here : directory ++ [name] = ["a", "b"] ++ ["style-lint.toml"] := by
    simp only [FileTree.nest, List.mem_cons, Prod.mk.injEq, List.not_mem_nil, or_false] at listed
    rcases listed with ⟨-, none⟩ | ⟨-, none⟩ | ⟨-, none⟩ | ⟨here, -⟩ | ⟨-, none⟩
    · cases none
    · cases none
    · cases none
    · exact here
    · cases none
  exact List.singleton_inj.mp (List.append_inj' here rfl).2

/-- A check of a file of one line does not change, and neither does the check of a whole tree in which
a link below leads to the new file. -/
theorem creation_changes_no_check_above_link :
    let plain : Workspace := { tree := .oneLine, current := [] }
    let linked := Workspace.nest []
    let options : CheckOptions := { extensions := ["cs", "..CS", "tom"] }
    (createCall plain true).status = .success ∧ (createCall linked true).status = .success ∧
      Unlinked plain options (plain.current ++ []) ∧ Unlinked linked options (linked.current ++ []) ∧
      perform (createCall plain true).workspace ⟨.check options, none⟩ =
        { perform plain ⟨.check options, none⟩ with workspace := (createCall plain true).workspace } ∧
      perform (createCall linked true).workspace ⟨.check options, none⟩ =
        { perform linked ⟨.check options, none⟩ with
          workspace := (createCall linked true).workspace } := by
  intro plain linked options
  obtain ⟨-, unchanged, unlinkedOf⟩ := creation_changes_no_check
  have nowhere : ∀ name ∈ projectNames, FileTree.oneLine.at? [name] = none := by
    intro name known
    fin_cases known <;> rfl
  have unset : find plain ⟨"."⟩ none = .default := find_root nowhere
  have alsoUnset : find linked ⟨"."⟩ none = .default := find_root (bare_nest [])
  have done : (createCall plain true).status = .success := createCall_root rfl
  have alsoDone : (createCall linked true).status = .success := createCall_root rfl
  have unlinked : Unlinked plain options (plain.current ++ []) := by
    refine unlinkedOf plain options true [] done rfl unset (fun directory name _ target link => ?_) ?_
    · have listed := mem_of_at? (by simp) link
      simp [plain, FileTree.oneLine] at listed
    · have unnamed : Ignore.Global.named? plain = none := rfl
      intro path named
      cases unnamed.symm.trans named
  have alsoUnlinked : Unlinked linked options (linked.current ++ []) := by
    have below : ChecksBelow linked options [] := rfl
    obtain ⟨leads, known⟩ := below.leads rfl
    refine ⟨fun directory name nearest => ?_, fun settings _ path listed written => ?_⟩
    · cases (nearest.find leads known).symm.trans alsoUnset
    · have noLink : ∀ directory, ∀ name ∈ ignoreNames, ∀ target,
          linked.tree.at? (directory ++ [name]) ≠ some (.link target) := by
        intro directory name known target link
        rw [name_of_link_nest link] at known
        exact absurd known (by decide)
      have unnamed : Ignore.Global.named? linked = none := rfl
      obtain named | ⟨name, known, last⟩ := getLast?_of_mem_ignorePaths noLink listed written
      · cases unnamed.symm.trans named
      obtain rfl := Option.some.inj last
      exact absurd known (by decide)
  exact ⟨done, alsoDone, unlinked, alsoUnlinked,
    unchanged plain options true [] done rfl unset rfl (by decide) unlinked,
    unchanged linked options true [] alsoDone rfl alsoUnset rfl (by decide) alsoUnlinked⟩

def unitless : Settings := { rules := [("SL001", { options := [("indent_unit", .integer 0)] })] }

def unitlessText : List Char := "rules.SL001.indent_unit = 0".toList

theorem ofText?_unitlessText : ofText? unitlessText = some unitless := by decide +kernel

/-- The file in the innermost directory is reached by its names. -/
theorem way_file_nest (own : List UInt8) : Way (FileTree.nest own) .target HasShortPath linkLimit []
    (Path.steps ⟨"a/b/x.cs"⟩) ["a", "b", "x.cs"] := by
  have steps : Path.steps ⟨"a/b/x.cs"⟩ = [.into "a", .into "b", .into "x.cs"] := by decide
  have short : ∀ place ∈ [["a"], ["a", "b"], ["a", "b", "x.cs"]], HasShortPath place := by
    unfold HasShortPath
    decide
  rw [steps]
  exact .into rfl (by decide) (short ["a"] (by simp)) rfl nofun (by simp)
    (.into rfl (by decide) (short ["a", "b"] (by simp)) rfl nofun (by simp)
      (.into rfl (by decide) (short ["a", "b", "x.cs"] (by simp)) rfl nofun (by simp) .here))

theorem locate_file_nest (own : List UInt8) :
    (FileTree.nest own).locate .target [] ⟨"a/b/x.cs"⟩ = .ok ["a", "b", "x.cs"] :=
  locate_eq_ok_iff.mpr ⟨by decide, by decide, by decide, (way_file_nest own).anywhere⟩

theorem canonical?_file_nest (own : List UInt8) :
    (Workspace.nest own).canonical? ⟨"a/b/x.cs"⟩ = some (absolute ["a", "b", "x.cs"]) :=
  Workspace.canonical?_of_way (by decide) (by decide) (way_file_nest own)

theorem read_nest (own : List UInt8) :
    (Workspace.nest own).read ⟨"/a/style-lint.toml"⟩ = .ok own := by
  have steps : Path.steps ⟨"/a/style-lint.toml"⟩ = [.into "a", .into "style-lint.toml"] := by decide
  have leads : (FileTree.nest own).locate .target [] ⟨"/a/style-lint.toml"⟩ =
      .ok ["a", "style-lint.toml"] := by
    refine locate_eq_ok_iff.mpr ⟨by decide, by decide, by decide, ?_⟩
    rw [steps]
    exact .into rfl (by decide) trivial rfl nofun (by simp)
      (.into rfl (by decide) trivial rfl nofun (by simp) .here)
  exact read_of_locate leads rfl

def innermost : CheckOptions := { path := some ⟨"a/b/x.cs"⟩ }

/-- Before the file is created, the check fails because of the indent unit. -/
theorem check_unitless :
    (Workspace.nest (Text.Utf8.encode unitlessText)).check innermost none =
      .error (.unit (.notPositive 0)) := by
  generalize same : Workspace.nest (Text.Utf8.encode unitlessText) = w
  have leads : w.tree.locate .target w.current ⟨"a/b/x.cs"⟩ = .ok ["a", "b", "x.cs"] := by
    rw [← same]
    exact locate_file_nest _
  have known : w.canonical? ⟨"a/b/x.cs"⟩ ≠ none := by simp [← same, canonical?_file_nest]
  have nearest : IsNearest w ["a", "b", "x.cs"] ["a"] "style-lint.toml" := by
    rw [← same]
    exact (isNearest_nest _).of_file rfl
  have loaded : (find w innermost.project none).load w = .ok unitless := by
    rw [innermost, CheckOptions.project, Option.getD_some, nearest.find leads known, ← same]
    exact loadFile_of_read (read_nest _) ofText?_unitlessText
  have failed : innermost.ruleSet unitless = .error (.unit (.notPositive 0)) := rfl
  have found : w.leadsTo (innermost.root unitless) = true := leadsTo_of_locate leads
  have summary : w.summary? innermost unitless = .error (.unit (.notPositive 0)) := by
    rw [Workspace.summary?_eq, if_pos found, failed]
    rfl
  rw [Workspace.check_eq, loaded]
  change w.summary? innermost unitless >>= _ = _
  rw [summary]
  rfl

/-- Afterwards the check prints its summary. -/
theorem exists_check_of_adds_nest {own : List UInt8} {tree : FileTree}
    (adds : Adds (.nest own) tree ["style-lint.toml"])
    (added : tree.at? ["style-lint.toml"] = some (.file (Text.Utf8.encode starter.toList))) :
    ∃ status text, { Workspace.nest own with tree }.check innermost none = .ok (status, text) ∧
      text ≠ "" := by
  have before := locate_file_nest own
  have leads : tree.locate .target [] ⟨"a/b/x.cs"⟩ = .ok ["a", "b", "x.cs"] :=
    adds.locate (by simp) before
  have file : tree.at? ["a", "b", "x.cs"] = some (.file [0x20, 0x66, 0x28]) := adds.at? rfl
  have known : { Workspace.nest own with tree }.canonical? ⟨"a/b/x.cs"⟩ ≠ none := by
    have same : { Workspace.nest own with tree }.canonical? ⟨"a/b/x.cs"⟩ = _ :=
      Workspace.canonical?_of_adds adds (canonical?_file_nest own)
    simp [same]
  have nearest : IsNearest { Workspace.nest own with tree } ["a", "b", "x.cs"] ["a", "b"]
      "style-lint.toml" := (isNearest_of_adds_nest adds added).of_file file
  have found := nearest.find leads known
  have astray : (Workspace.nest own).isFile ⟨"/a/b/style-lint.toml"⟩ = false := by
    refine Bool.eq_false_iff.mpr fun isFile => ?_
    obtain ⟨place, _, located, -⟩ := isFileAt_iff.mp isFile
    have real : (FileTree.nest own).IsReal ["a", "b"] := isReal_of_isDirectory rfl
    have located : (FileTree.nest own).locate .target [] (absolute (["a", "b"] ++ ["style-lint.toml"])) =
        .ok place := located
    exact locate_target_nest own place ((locate_absolute_concat real (by decide)).mp located).2
  have loaded : (find { Workspace.nest own with tree } innermost.project none).load
      { Workspace.nest own with tree } = .ok starterSettings := by
    rw [innermost, CheckOptions.project, Option.getD_some, found]
    exact loadFile_starter adds added (isFile_of_find (congrArg path? found)) astray
  have built : innermost.ruleSet starterSettings = .ok .default := rfl
  obtain ⟨patterns, valid⟩ := Discovery.exists_excludes_default
  have isFile : { Workspace.nest own with tree }.isFile ⟨"a/b/x.cs"⟩ = true :=
    isFileAt_of_locate leads file
  have checked := Workspace.checkBy_of_run loaded (leadsTo_of_locate leads) built
    (Discovery.files_of_isFile isFile valid)
  exact ⟨_, _, checked, Summary.render_ne_empty _ _⟩

/-- A check changes if a link that is nearer than the settings that counted leads to the new file: it
failed because of an indent unit before. -/
theorem creation_changes_checks_through_links : ¬ ∀ (w : Workspace) (options : CheckOptions)
    (force : Bool) (names : List String),
    (createCall w force).status = .success → w.tree.at? (newPlace w) = none →
    find w ⟨"."⟩ none = .default →
    w.tree.locate .target w.current options.project = .ok (w.current ++ names) →
    (∀ extension ∈ options.extensions, Text.equalUpToCase
      (CheckOptions.withoutDots extension).toList "toml".toList = false) →
    (perform (createCall w force).workspace ⟨.check options, none⟩).status =
        (perform w ⟨.check options, none⟩).status ∧
      (perform (createCall w force).workspace ⟨.check options, none⟩).printed =
        (perform w ⟨.check options, none⟩).printed := by
  intro unchanged
  have done : (createCall (.nest (Text.Utf8.encode unitlessText)) true).status = .success :=
    createCall_root rfl
  obtain ⟨-, tree, after, adds, added⟩ := adds_of_createCall done rfl
  obtain ⟨status, text, checked, printed⟩ := exists_check_of_adds_nest adds added
  have same := (unchanged _ innermost true ["a", "b", "x.cs"] done rfl (find_root (bare_nest _))
    (locate_file_nest _) nofun).2
  rw [after, perform_of_ok checked, perform_of_error check_unitless] at same
  exact printed same

end Program

end LineLint
