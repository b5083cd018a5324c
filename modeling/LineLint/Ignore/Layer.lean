import LineLint.Ignore.File
import LineLint.Workspace

/-! # Ignore files of directories

Every directory may have ignore files of three kinds. Of two kinds the weightier one decides, and
of two directories the inner one; the ignore file of the user comes last.
-/

namespace LineLint.Ignore

inductive Kind where
  | plain
  | git
  | gitExclude
deriving DecidableEq, Repr

namespace Kind

/-- Every kind, the weightiest first. -/
def all : List Kind := [plain, git, gitExclude]

/-- The path of a file of this kind in its directory. -/
def fileName : Kind → String
  | plain => ".ignore"
  | git => ".gitignore"
  | gitExclude => ".git/info/exclude"

end Kind

structure Layer where
  directory : Path
  plain : File
  git : File
  gitExclude : File
deriving Repr

namespace Layer

def file (layer : Layer) : Kind → File
  | .plain => layer.plain
  | .git => layer.git
  | .gitExclude => layer.gitExclude

def load (w : Workspace) (directory : Path) : Layer :=
  let file (kind : Kind) : File := File.load w.tree w.current (directory.join kind.fileName)
  ⟨directory, file .plain, file .git, file .gitExclude⟩

/-- What is wrong with the ignore files of a directory. -/
def messages (layer : Layer) : List String :=
  Kind.all.flatMap fun kind =>
    (layer.file kind).messages (layer.directory.join kind.fileName)

end Layer

/-- A text without a `./` in front. -/
def withoutDot : List Char → List Char
  | '.' :: '/' :: rest => rest
  | text => text

/-- A path as the patterns of a directory see it: without the directory in front. -/
def relative (directory : Path) (path : List Char) : List Char :=
  let path := withoutDot path
  let front := withoutDot directory.text.toList
  if (Path.mk (String.ofList front)).components = [.current] ∨ '/' ∉ path then path
  else if front.isPrefixOf path then
    match path.drop front.length with
    | '/' :: rest => rest
    | rest => rest
  else path

/-- The ignore files of a directory and the path that is looked up in them. -/
structure View where
  layer : Layer
  /-- The path as the patterns of the directory see it. -/
  path : List UInt8
deriving Repr

/-- A path as it is looked up in the ignore files of a directory. -/
def Layer.view (layer : Layer) (path : List Char) : View :=
  ⟨layer, Text.Utf8.encode (relative layer.directory path)⟩

/-- What the files of one kind say, where the inner directories come first. -/
def verdictOfKind? (views : List View) (isDirectory : Bool) (kind : Kind) : Option Verdict :=
  views.findSome? fun view => verdict? (view.layer.file kind).patterns view.path isDirectory

/-- What the ignore files of directories say, where the inner directories come first. -/
def verdictOfViews? (views : List View) (isDirectory : Bool) : Option Verdict :=
  Kind.all.findSome? (verdictOfKind? views isDirectory)

end LineLint.Ignore
