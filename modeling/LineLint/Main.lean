import LineLint.FileTree.Build
import LineLint.Program

/-! # The executable

The files that a run may look at are read in advance, the run is computed from them, and what it
leaves is written back.
-/

namespace LineLint

/-- The tree with a file, if it can be read, or with an empty directory. -/
def addFileFrom (tree : FileTree) (text : String) : IO FileTree := do
  try
    if ← (← IO.FS.realPath text).isDir then
      return (tree.addDirectory [] ⟨text⟩).toOption.getD tree
    let octets ← IO.FS.readBinFile text
    return (tree.addFile [] ⟨text⟩ octets.toList).toOption.getD tree
  catch _ => return tree

/-- The tree with what lies below a directory. A link leads to where its target really lies. -/
partial def addAllFrom (tree : FileTree) (directory : String) : IO FileTree := do
  try
    let made := (tree.addDirectory [] ⟨directory⟩).toOption.getD tree
    let entries ← (← IO.FS.realPath directory).readDir
    entries.foldlM
      (fun tree entry => do
        let text := ((Path.mk directory).join entry.fileName).text
        try
          match (← entry.path.symlinkMetadata).type with
          | .dir => addAllFrom tree text
          | .file => addFileFrom tree text
          | .symlink =>
            let target := (← IO.FS.realPath entry.path).toString
            let linked := (tree.addLink [] ⟨text⟩ target).toOption.getD tree
            addFileFrom linked target
          | .other => return tree
        catch _ => return tree)
      made
  catch _ => return tree

/-- The names of the files that count in a directory although it is not scanned. -/
def namesAbove : List String := SettingsLocation.projectNames ++ Ignore.Kind.all.map (·.fileName)

/-- The tree with the files that count in the directories at and above a path, and the path under
which it really lies. -/
def addAbove (tree : FileTree) (path : String) : IO (FileTree × String) := do
  try
    let real := (← IO.FS.realPath path).toString
    let files := (Path.mk real).ancestors.flatMap fun directory =>
      namesAbove.map fun name => (directory.join name).text
    return (← files.foldlM addFileFrom tree, real)
  catch _ => return (tree, path)

/-- The path that a run scans, if it scans one. -/
def scannedPath? (w : Workspace) (arguments : List String) (fallback : Option String) :
    Option Path :=
  match CommandLine.parse arguments fallback with
  | .ok ⟨.check options, file⟩ =>
    match (SettingsLocation.find w options.project file).load w with
    | .ok settings => some (options.root settings)
    | .error _ => none
  | _ => none

/-- The files of the user's directories and of the command line. -/
def userFiles (w : Workspace) (arguments : List String) (fallback : Option String) : List Path :=
  let settings := (SettingsLocation.globalDirectory? w).map (·.join SettingsLocation.globalName)
  let asked := (CommandLine.parse arguments fallback).toOption.bind Invocation.settings
  settings.toList ++ asked.toList ++ Ignore.Global.configurations w.home

def absolutePath (current : String) (path : Path) : String :=
  ((Path.mk current).join path.text).text

/-- The tree where a path leads to what really lies elsewhere. -/
def withWay (tree : FileTree) (text real : String) : FileTree :=
  let tree := ((tree.addParent [] ⟨text⟩).toOption.map Prod.fst).getD tree
  if tree.leadsTo [] ⟨text⟩ then tree else (tree.addLink [] ⟨text⟩ real).toOption.getD tree

/-- Adds a scanned path: a file, or all that lies in a directory. The path itself may lead through
links. -/
def addScanned (tree : FileTree) (text : String) : IO FileTree := do
  let (tree, real) ← addAbove tree text
  let tree ←
    if ← (← IO.FS.realPath text).isDir then addAllFrom tree real else addFileFrom tree real
  return withWay tree text real

def loadWorkspace (arguments : List String) (fallback : Option String) : IO Workspace := do
  let current := (← IO.currentDir).toString
  let home ← IO.getEnv "HOME"
  let configuration := (← IO.getEnv "XDG_CONFIG_HOME").filter (· ≠ "")
  let settingsDirectory ← IO.getEnv "STYLE_LINT_CONFIG_DIR"
  let made := (FileTree.empty.addDirectory [] ⟨current⟩).toOption.getD .empty
  let place := (made.locate .target [] ⟨current⟩).toOption.getD []
  let empty : Workspace :=
    { tree := made, current := place
      home := ⟨home.map Path.mk, configuration.map Path.mk⟩
      settingsDirectory := settingsDirectory.map Path.mk }
  let project :=
    match CommandLine.parse arguments fallback with
    | .ok ⟨.check options, _⟩ => options.project
    | _ => ⟨"."⟩
  let (tree, _) ← addAbove made current
  let (tree, _) ← addAbove tree (absolutePath current project)
  let files := (userFiles empty arguments fallback).map (absolutePath current)
  let tree ← files.foldlM addFileFrom tree
  -- Which ignore file is the user's is known once the configurations are there.
  let ignore := (Ignore.Global.path? { empty with tree := tree }).map (absolutePath current)
  let tree ← ignore.toList.foldlM addFileFrom tree
  let w := { empty with tree := tree }
  match scannedPath? w arguments fallback with
  | none => return w
  | some path =>
    try
      return { w with tree := ← addScanned tree (absolutePath current path) }
    catch _ => return w

end LineLint

open LineLint in
/-- Runs the program on the files of the machine. -/
def main (arguments : List String) : IO UInt32 := do
  let fallback ← IO.getEnv "STYLE_LINT_CONFIG"
  let w ← loadWorkspace arguments fallback
  let result := Program.run w arguments fallback
  let written := result.workspace.read Settings.newFile
  if written.toOption ≠ (w.read Settings.newFile).toOption then
    match written with
    | .ok octets => IO.FS.writeBinFile Settings.newFile.text ⟨octets.toArray⟩
    | .error _ => pure ()
  (← IO.getStdout).putStr result.printed
  (← IO.getStderr).putStr result.complaint
  return result.status.code.toUInt32
