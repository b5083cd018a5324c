import LineLint.Ignore.Global
import LineLint.Ignore.Layer
import LineLint.Settings
import LineLint.Text.AsciiCase

/-! # Discovering files

The files of a directory are found at any depth, without following links, and in the order of
their paths. A file counts if it has one of the extensions, no exclude pattern matches its name in
reports, and neither it nor a directory on the way to it is ignored. A root that is a file is found
whatever it is called.
-/

namespace LineLint

inductive DiscoveryError where
  | badExclude (pattern : String) (error : Exclude.PatternError)
  /-- Lines of the ignore files above the root are no patterns. -/
  | badIgnoreFiles (messages : List String)
  | badRoot (root : Path) (error : FileError)

/-- The words for an error and for what caused it. -/
def DiscoveryError.chain : DiscoveryError → List String
  | badExclude pattern error => ["Invalid exclude pattern: " ++ pattern, error.message]
  | badIgnoreFiles messages => ["\n".intercalate messages]
  | badRoot root error =>
    [root.text ++ ": IO error for operation on " ++ root.text ++ ": " ++ error.message]

namespace Discovery

/-- The extension of a file name: what follows its last dot, unless that comes first. -/
def extension? (name : String) : Option (List Char) :=
  match (Text.split '.' name.toList).reverse with
  | extension :: before :: more => if before = [] ∧ more = [] then none else some extension
  | _ => none

/-- Whether a file name has one of the extensions, up to ASCII case. -/
def hasExtension (extensions : List String) (name : String) : Bool :=
  (extension? name).any fun extension =>
    extensions.any fun wanted => Text.equalUpToCase wanted.toList extension

def excludes : List String → Except DiscoveryError (List (List Exclude.Token))
  | [] => .ok []
  | pattern :: rest =>
    match Exclude.ofText pattern.toList with
    | .error error => .error (.badExclude pattern error)
    | .ok tokens => (excludes rest).map (tokens :: ·)

/-- What is excluded where nothing is set are patterns. -/
theorem exists_excludes_default : ∃ tokens, excludes ({} : ScanSettings).exclude = .ok tokens := by
  have valid : (excludes ({} : ScanSettings).exclude).toOption.isSome = true := by cbv
  cases read : excludes ({} : ScanSettings).exclude with
  | ok tokens => exact ⟨tokens, rfl⟩
  | error error =>
    rw [read] at valid
    cases valid

/-- The names that lead from a place to what lies below it. -/
def namesBelow? (place : Place) (entry : Place) : Option (List String) :=
  if place.isPrefixOf entry ∧ place.length < entry.length then some (entry.drop place.length)
  else none

/-- The names that lead to the files below a place, in any order. -/
def filesBelow (tree : FileTree) (place : Place) : List (List String) :=
  tree.entries.filterMap fun (entry, content) =>
    match content with
    | .file _ => namesBelow? place entry
    | _ => none

/-- The names that lead to the directories below a place, in any order. -/
def directoriesBelow (tree : FileTree) (place : Place) : List (List String) :=
  tree.entries.filterMap fun (entry, content) =>
    match content with
    | .directory => namesBelow? place entry
    | _ => none

/-- What may be ignored in a scan. -/
structure Ignoring where
  /-- The ignore files of the root and of the directories below it, with the names that lead
  there. -/
  inside : List (List String × Ignore.Layer)
  /-- The ignore files of the directories above the root, the innermost first. -/
  above : List Ignore.Layer
  /-- The patterns of the user, and the directory to which they are tied. -/
  global : List Ignore.Pattern
  current : Path

/-- The places above a place, the innermost first. -/
def placesAbove (place : Place) : List Place :=
  ((List.range place.length).map place.take).reverse

/-- The ignore files that take part in the scan of a root that lies at a place. -/
def Ignoring.load (w : Workspace) (root : Path) (place : Place) : Ignoring where
  inside := ([] :: directoriesBelow w.tree place).map fun names =>
    (names, Ignore.Layer.load w (root.joinAll names))
  above := (placesAbove place).map fun above => Ignore.Layer.load w (FileTree.absolute above)
  global :=
    match Ignore.Global.path? w with
    | some path => (Ignore.File.load w.tree w.current path).patterns
    | none => []
  current := FileTree.absolute w.current

def Ignoring.nothing : Ignoring := ⟨[], [], [], ⟨""⟩⟩

/-- What is wrong with the ignore files above the root, the outermost directory first. -/
def Ignoring.messages (ignoring : Ignoring) : List String :=
  ignoring.above.reverse.flatMap Ignore.Layer.messages

/-- The names of the directories on the way to a name, from the innermost to the root. -/
def waysTo (names : List String) : List (List String) :=
  ((List.range names.length).map names.take).reverse

/-- What ignore files say about what the names lead to from the root at a place. -/
def Ignoring.verdict? (ignoring : Ignoring) (root : Path) (place : Place) (names : List String)
    (isDirectory : Bool) : Option Ignore.Verdict :=
  let path := Ignore.withoutDot (root.joinAll names).text.toList
  let inside := (waysTo names).filterMap fun way =>
    (ignoring.inside.find? fun entry => entry.1 == way).map fun entry => entry.2.view path
  let above := ignoring.above.map fun layer =>
    layer.view (FileTree.absolute (place ++ names)).text.toList
  (Ignore.verdictOfViews? (inside ++ above) isDirectory).or
    (Ignore.verdict? ignoring.global
      (Text.Utf8.encode (Ignore.relative ignoring.current path)) isDirectory)

/-- Whether a scan reaches the file that names lead to: neither it nor a directory on the way is
ignored. -/
def Ignoring.reaches (ignoring : Ignoring) (root : Path) (place : Place) (names : List String) :
    Bool :=
  (waysTo names).all (fun way =>
    way.isEmpty || ignoring.verdict? root place way true != some .ignored) &&
    ignoring.verdict? root place names false != some .ignored

/-- Whether one path comes before another or is the same. -/
def inOrder (a b : Path) : Bool := (compare a.key b.key).isLE

/-- Whether one of some exclude patterns matches the name of a file in reports. -/
def isExcluded (patterns : List (List Exclude.Token)) (root path : Path) : Bool :=
  patterns.any fun pattern => Exclude.isMatch pattern (path.idBelow root).toList

/-- The files to analyze among those that a walk has noted: those that have one of the extensions and
that no pattern excludes, as paths and in order. -/
def sifted (settings : ScanSettings) (patterns : List (List Exclude.Token)) (root : Path)
    (noted : List (List String)) : List Path :=
  ((noted.filter fun names =>
    (names.getLast?.any fun name => hasExtension settings.extensions name) &&
      !isExcluded patterns root (root.joinAll names)).map root.joinAll).mergeSort inOrder

/-- The paths of the files that a scan of a directory finds. -/
def scan (tree : FileTree) (settings : ScanSettings) (patterns : List (List Exclude.Token))
    (ignoring : Ignoring) (root : Path) (place : Place) : List Path :=
  sifted settings patterns root ((filesBelow tree place).filter (ignoring.reaches root place))

end Discovery

end LineLint
