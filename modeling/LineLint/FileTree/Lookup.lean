import LineLint.FileTree
import LineLint.Path

/-! # Following paths

A path is followed step by step from the working directory, or from the root if it is absolute.
Every step starts in a directory. A link is replaced by the steps of its target, and at most forty
links are followed on the way. A slash at the end of a path asks for a directory. Names and whole
paths have a greatest length.
-/

namespace LineLint

/-- Why a path leads nowhere, or not to a file. -/
inductive FileError where
  | notFound
  | notDirectory
  | isDirectory
  | tooManyLinks
  | nameTooLong
  | zeroInName
  | notUtf8
deriving DecidableEq, Repr

def FileError.message : FileError → String
  | notFound => "No such file or directory (os error 2)"
  | notDirectory => "Not a directory (os error 20)"
  | isDirectory => "Is a directory (os error 21)"
  | tooManyLinks => "Too many levels of symbolic links (os error 40)"
  | nameTooLong => "File name too long (os error 36)"
  | zeroInName => "file name contained an unexpected NUL byte"
  | notUtf8 => "stream did not contain valid UTF-8"

/-- One step on the way that a path describes. -/
inductive Step where
  /-- A `.`. -/
  | stay
  /-- A `..`. -/
  | up
  | into (name : String)
  /-- A slash at the end. -/
  | slash
deriving DecidableEq, Repr

namespace Step

/-- The step of a piece between slashes, if it is one. -/
def ofPiece? (piece : List Char) : Option Step :=
  if piece = [] then none
  else if piece = ['.'] then some stay
  else if piece = ['.', '.'] then some up
  else some (into (String.ofList piece))

end Step

namespace Path

def steps (path : Path) : List Step :=
  let text := path.text.toList
  (Text.split '/' text).filterMap Step.ofPiece? ++
    if text.getLast? = some '/' then [.slash] else []

/-- Where the first step of a path starts. -/
def origin (path : Path) (start : Place) : Place := if path.isAbsolute then [] else start

end Path

/-- What a path is followed for. -/
inductive Purpose where
  /-- What it leads to, through all links. -/
  | target
  /-- What it names, also if that is a link. -/
  | itself
  /-- A place to write to, where nothing needs to lie yet. -/
  | writing
deriving DecidableEq, Repr

namespace FileTree

/-- The number of links that are followed on one way. -/
def linkLimit : Nat := 40

/-- The greatest number of bytes of a name. -/
def nameLimit : Nat := 255

/-- The greatest number of bytes of a path. -/
def pathLimit : Nat := 4095

/-- The text of the path to a place. -/
def absolute (place : Place) : Path := ⟨"/" ++ "/".intercalate place⟩

/-- The place to which steps lead from a place when `links` more links may be followed. -/
def follow (tree : FileTree) (purpose : Purpose) (links : Nat) (place : Place) :
    List Step → Except FileError Place
  | [] => .ok place
  | step :: rest =>
    if !tree.isDirectory place then .error .notDirectory
    else
      match step with
      | .stay | .slash => tree.follow purpose links place rest
      | .up => tree.follow purpose links place.dropLast rest
      | .into name =>
        if purpose = .writing ∧ rest = [.slash] then .error .isDirectory
        else if nameLimit < name.utf8ByteSize then .error .nameTooLong
        else
          match tree.at? (place ++ [name]) with
          | none =>
            if purpose = .writing ∧ rest = [] then .ok (place ++ [name]) else .error .notFound
          | some (.link target) =>
            if purpose = .itself ∧ rest = [] then .ok (place ++ [name])
            else
              match links with
              | 0 => .error .tooManyLinks
              | links + 1 =>
                let target : Path := ⟨target⟩
                tree.follow purpose links (target.origin place) (target.steps ++ rest)
          | some _ => tree.follow purpose links (place ++ [name]) rest
termination_by steps => (links, steps.length)

/-- The place to which steps lead when everything on the way is asked for by its absolute path, which
must not be too long either. -/
def resolve (tree : FileTree) (links : Nat) (place : Place) :
    List Step → Except FileError Place
  | [] => .ok place
  | step :: rest =>
    if !tree.isDirectory place then .error .notDirectory
    else
      match step with
      | .stay | .slash => tree.resolve links place rest
      | .up => tree.resolve links place.dropLast rest
      | .into name =>
        if nameLimit < name.utf8ByteSize ∨
            pathLimit < (absolute (place ++ [name])).text.utf8ByteSize then
          .error .nameTooLong
        else
          match tree.at? (place ++ [name]) with
          | none => .error .notFound
          | some (.link target) =>
            match links with
            | 0 => .error .tooManyLinks
            | links + 1 =>
              let target : Path := ⟨target⟩
              tree.resolve links (target.origin place) (target.steps ++ rest)
          | some _ => tree.resolve links (place ++ [name]) rest
termination_by steps => (links, steps.length)

/-- The place to which a path leads from a working directory. -/
def locate (tree : FileTree) (purpose : Purpose) (start : Place) (path : Path) :
    Except FileError Place :=
  if '\x00' ∈ path.text.toList then .error .zeroInName
  else if path.text = "" then .error .notFound
  else if pathLimit < path.text.utf8ByteSize then .error .nameTooLong
  else tree.follow purpose linkLimit (path.origin start) path.steps

def leadsTo (tree : FileTree) (start : Place) (path : Path) : Bool :=
  match tree.locate .target start path with
  | .ok _ => true
  | .error _ => false

def get? (tree : FileTree) (start : Place) (path : Path) : Option Entry :=
  match tree.locate .target start path with
  | .ok place => tree.at? place
  | .error _ => none

def isFileAt (tree : FileTree) (start : Place) (path : Path) : Bool :=
  match tree.get? start path with
  | some (.file _) => true
  | _ => false

def read (tree : FileTree) (start : Place) (path : Path) : Except FileError (List UInt8) := do
  let place ← tree.locate .target start path
  match tree.at? place with
  | some (.file octets) => .ok octets
  | some _ => .error .isDirectory
  | none => .error .notFound

/-- The tree after a file is written to the place to which a path leads. The file is created if
nothing lies there, and replaced if it does. -/
def write (tree : FileTree) (start : Place) (path : Path) (octets : List UInt8) :
    Except FileError FileTree := do
  let place ← tree.locate .writing start path
  match tree.at? place with
  | some .directory => .error .isDirectory
  | _ =>
    match place.getLast? with
    | none => .error .isDirectory
    | some name =>
      match tree.put? place.dropLast name (.file octets) with
      | some written => .ok written
      | none => .error .notFound

theorem follow_nil (tree : FileTree) (purpose : Purpose) (links : Nat) (place : Place) :
    tree.follow purpose links place [] = .ok place := by
  unfold follow
  rfl

theorem resolve_nil (tree : FileTree) (links : Nat) (place : Place) :
    tree.resolve links place [] = .ok place := by
  unfold resolve
  rfl

end FileTree

end LineLint
