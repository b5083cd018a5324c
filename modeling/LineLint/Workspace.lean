import LineLint.FileTree.Lookup

/-! # Workspaces

A workspace is what the program sees of the world: the files, the directory in which it works, and
the directories of the user.
-/

namespace LineLint

/-- Where a user keeps files. -/
structure Home where
  /-- The path of the home directory, if there is one. -/
  directory : Option Path := none
  /-- The path of the directory of configuration files, if it is not the usual one. -/
  configuration : Option Path := none

instance : Coe (Option Path) Home := ⟨fun directory => { directory }⟩

/-- The directory of configuration files: `.config` in the home directory if no other one is set. -/
def Home.configurationDirectory? (home : Home) : Option Path :=
  home.configuration.or (home.directory.map (·.join ".config"))

/-- The files, and where the program stands among them. -/
structure Workspace where
  tree : FileTree
  /-- The working directory. -/
  current : Place
  home : Home := {}
  /-- The path of the directory of the user's settings, if it is set. -/
  settingsDirectory : Option Path := none

namespace Workspace

def leadsTo (w : Workspace) (path : Path) : Bool := w.tree.leadsTo w.current path

def isFile (w : Workspace) (path : Path) : Bool := w.tree.isFileAt w.current path

def read (w : Workspace) (path : Path) : Except FileError (List UInt8) :=
  w.tree.read w.current path

/-- The workspace after a file is written to the place to which a path leads. -/
def write (w : Workspace) (path : Path) (octets : List UInt8) : Except FileError Workspace :=
  (w.tree.write w.current path octets).map fun tree => { w with tree := tree }

/-- The absolute path, free of links, to what a path leads to. The path may be as long as it likes,
but no absolute path on the way. -/
def canonical? (w : Workspace) (path : Path) : Option Path :=
  if '\x00' ∈ path.text.toList ∨ path.text = "" then none
  else
    match w.tree.resolve FileTree.linkLimit (path.origin w.current) path.steps with
    | .ok place => some (FileTree.absolute place)
    | .error _ => none

end Workspace

end LineLint
