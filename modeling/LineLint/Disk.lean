import LineLint.Discovery
import LineLint.Source

/-! # Disks

While a check runs, files come and go, and a directory or a file may be closed to the program. So a
check asks a disk for files, and a disk answers as it likes: a path may lead to nothing although a
walk has noted a file there, and a file that was noted may not be readable. The disk of a workspace
answers by its tree.
-/

namespace LineLint

/-- A way to read files: the content, or why there is none. -/
abbrev Reader := Path → Except String (List UInt8)

/-- A way to walk a directory, with or without regard to ignore files: the names that lead to the
files that the walk notes, or why it fails. -/
abbrev Walker := Bool → Path → Except DiscoveryError (List (List String))

/-- What answers when a check asks for files. -/
structure Disk where
  /-- Whether a path leads to anything. -/
  leadsTo : Path → Bool
  /-- Whether a path leads to a file. -/
  isFile : Path → Bool
  walk : Walker
  read : Reader

namespace Discovery

/-- The path that a walk takes for the standard input, even if there is a directory of that name. -/
def standardInput : Path := ⟨"-"⟩

/-- The paths of the files to analyze below a root. -/
def filesBy (disk : Disk) (settings : ScanSettings) (root : Path) :
    Except DiscoveryError (List Path) := do
  let patterns ← excludes settings.exclude
  if disk.isFile root then .ok [root]
  else
    let noted ← disk.walk settings.respectGitignore root
    return sifted settings patterns root noted

/-- The text of a file: what is not UTF-8 is replaced, and a byte order mark is dropped. -/
def decode (octets : List UInt8) : String :=
  String.ofList (Text.Utf8.decodeLossy (Text.Utf8.dropMark octets))

/-- A file as a source, under its name below the root. -/
def loadBy (read : Reader) (root path : Path) : Source :=
  match read path with
  | .ok octets => ⟨path.idBelow root, .text (decode octets)⟩
  | .error reason => ⟨path.idBelow root, .unreadable reason⟩

end Discovery

namespace Workspace

open Discovery

def walker (w : Workspace) : Walker := fun respectGitignore root =>
  if root.components = standardInput.components then .ok []
  else
    match w.tree.locate .itself w.current root, w.tree.locate .target w.current root with
    | .error error, _ => .error (.badRoot root error)
    | _, .error error => .error (.badRoot root error)
    | .ok _, .ok place =>
      if w.tree.isDirectory place then
        let ignoring := if respectGitignore then Ignoring.load w root place else .nothing
        match ignoring.messages with
        | [] => .ok ((filesBelow w.tree place).filter (ignoring.reaches root place))
        | messages => .error (.badIgnoreFiles messages)
      else .ok []

def reader (w : Workspace) : Reader := fun path => (w.read path).mapError FileError.message

def disk (w : Workspace) : Disk := ⟨w.leadsTo, w.isFile, w.walker, w.reader⟩

end Workspace

namespace Discovery

def files (w : Workspace) (settings : ScanSettings) (root : Path) :
    Except DiscoveryError (List Path) := filesBy w.disk settings root

def load (w : Workspace) (root path : Path) : Source := loadBy w.reader root path

/-- Once the patterns are read, a root that is a file is found, and what a walk of another root notes is
sifted. -/
theorem filesBy_of_excludes {disk : Disk} {settings : ScanSettings} {root : Path}
    {tokens : List (List Exclude.Token)} (valid : excludes settings.exclude = .ok tokens) :
    filesBy disk settings root =
      if disk.isFile root then .ok [root]
      else (disk.walk settings.respectGitignore root).map (sifted settings tokens root) := by
  rw [filesBy, valid]
  cases disk.isFile root with
  | true => rfl
  | false => cases disk.walk settings.respectGitignore root <;> rfl

theorem filesBy_of_no_excludes {disk : Disk} {settings : ScanSettings} {root : Path}
    {error : DiscoveryError} (invalid : excludes settings.exclude = .error error) :
    filesBy disk settings root = .error error := by
  rw [filesBy, invalid]
  rfl

theorem filesBy_of_isFile {disk : Disk} {settings : ScanSettings} {root : Path}
    {tokens : List (List Exclude.Token)} (isFile : disk.isFile root = true)
    (valid : excludes settings.exclude = .ok tokens) : filesBy disk settings root = .ok [root] := by
  rw [filesBy_of_excludes valid, if_pos isFile]

theorem files_of_isFile {w : Workspace} {settings : ScanSettings} {root : Path}
    {tokens : List (List Exclude.Token)} (isFile : w.isFile root = true)
    (valid : excludes settings.exclude = .ok tokens) : files w settings root = .ok [root] :=
  filesBy_of_isFile isFile valid

end Discovery

end LineLint
