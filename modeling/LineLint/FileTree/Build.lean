import LineLint.FileTree.Lookup

/-! # Building file trees

Directories are made on the way to a place as they are needed, and links on the way are followed.
-/

namespace LineLint.FileTree

/-- Goes along steps from a place and makes the directories that are missing. -/
def makeDirectories (tree : FileTree) (place : Place) :
    List Step → Except FileError (FileTree × Place)
  | [] => .ok (tree, place)
  | .stay :: rest | .slash :: rest => tree.makeDirectories place rest
  | .up :: rest => tree.makeDirectories place.dropLast rest
  | .into name :: rest =>
    match tree.at? (place ++ [name]) with
    | none =>
      match tree.put? place name .directory with
      | some made => made.makeDirectories (place ++ [name]) rest
      | none => .error .notDirectory
    | some .directory => tree.makeDirectories (place ++ [name]) rest
    | some (.file _) => .error .notDirectory
    | some (.link _) => do
      let target ← tree.locate .target place ⟨name⟩
      if tree.isDirectory target then tree.makeDirectories target rest else .error .notDirectory

def addDirectory (tree : FileTree) (start : Place) (path : Path) : Except FileError FileTree :=
  (tree.makeDirectories (path.origin start) path.steps).map Prod.fst

/-- The tree with the directory in which the last component of a path lies. -/
def addParent (tree : FileTree) (start : Place) (path : Path) :
    Except FileError (FileTree × Place) :=
  match path.parent? with
  | none => .ok (tree, path.origin start)
  | some parent => tree.makeDirectories (parent.origin start) parent.steps

def addFile (tree : FileTree) (start : Place) (path : Path) (octets : List UInt8) :
    Except FileError FileTree := do
  let (tree, _) ← tree.addParent start path
  tree.write start path octets

def addLink (tree : FileTree) (start : Place) (path : Path) (target : String) :
    Except FileError FileTree := do
  let (tree, directory) ← tree.addParent start path
  match path.components.getLast? with
  | some (.name name) =>
    match tree.put? directory name (.link target) with
    | some linked => .ok linked
    | none => .error .isDirectory
  | _ => .error .isDirectory

end LineLint.FileTree
