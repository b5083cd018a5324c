import LineLint.Settings.OfToml
import LineLint.Text.Utf8
import LineLint.Workspace

/-! # Where settings come from

Settings come from the file that is asked for, or else from the nearest project file at or above
the scanned path, or else from the user's file; without any of them nothing is set.
-/

namespace LineLint

/-- Where settings come from. -/
inductive SettingsLocation where
  /-- A file that is asked for, which may not exist. -/
  | explicit (path : Path)
  /-- A file of the scanned project. -/
  | project (path : Path)
  /-- The file of the user. -/
  | global (path : Path)
  /-- Nowhere. -/
  | default
deriving DecidableEq, Repr

inductive SettingsError where
  | unreadable (path : Path) (error : FileError)
  | invalid (path : Path)
deriving DecidableEq, Repr

/-- The words for an error and for what caused it. -/
def SettingsError.chain : SettingsError → List String
  | unreadable path error =>
    ["Failed to load config: " ++ path.text,
      "Failed to read config file " ++ path.text ++ ": " ++ error.message, error.message]
  | invalid path => ["Failed to load config: " ++ path.text, "Failed to parse config"]

namespace SettingsLocation

/-- The file from which settings come, if there is one. -/
def path? : SettingsLocation → Option Path
  | explicit path | project path | global path => some path
  | default => none

/-- The names of project files, the one that wins first. -/
def projectNames : List String := ["style-lint.toml", ".style-lint.toml"]

/-- The name of the user's file in its directory. -/
def globalName : String := "config.toml"

def projectFileIn? (w : Workspace) (directory : Path) : Option Path :=
  (projectNames.map directory.join).find? w.isFile

/-- The project file of the nearest directory at or above a path. -/
def projectFile? (w : Workspace) (path : Path) : Option Path :=
  ((w.canonical? path).getD path).ancestors.findSome? (projectFileIn? w)

def globalDirectory? (w : Workspace) : Option Path :=
  w.settingsDirectory.or (w.home.directory.map fun home => home.join ".style-lint")

/-- The user's file. -/
def globalFile? (w : Workspace) : Option Path :=
  ((globalDirectory? w).map fun directory => directory.join globalName).filter w.isFile

/-- Where the settings for a path come from. -/
def find (w : Workspace) (path : Path) : Option Path → SettingsLocation
  | some file => explicit file
  | none =>
    match projectFile? w path with
    | some file => project file
    | none =>
      match globalFile? w with
      | some file => global file
      | none => default

def loadFile (w : Workspace) (path : Path) : Except SettingsError Settings :=
  match w.read path with
  | .error error => .error (.unreadable path error)
  | .ok octets =>
    match Text.Utf8.decode? octets with
    | none => .error (.unreadable path .notUtf8)
    | some text =>
      match Settings.ofText? text with
      | some settings => .ok settings
      | none => .error (.invalid path)

def load (w : Workspace) (location : SettingsLocation) : Except SettingsError Settings :=
  match location.path? with
  | none => .ok .default
  | some path => loadFile w path

end SettingsLocation

end LineLint
