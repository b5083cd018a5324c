import LineLint.Text.Split

/-! # Paths

A path is a text. What it means depends on its components alone, which leave out repeated and
trailing slashes and every `.` but one in front; what is shown to a user is the text.
-/

namespace LineLint

inductive Component where
  /-- The slash in front of an absolute path. -/
  | root
  /-- A `.` in front of a relative path. -/
  | current
  /-- A `..`. -/
  | parent
  | name (name : String)
deriving DecidableEq, Repr

namespace Component

def text : Component → String
  | root => "/"
  | current => "."
  | parent => ".."
  | name n => n

/-- The place of a component in the order of components: names come last, by their characters. -/
def key : Component → List Nat
  | root => [0]
  | current => [1]
  | parent => [2]
  | name n => 3 :: n.toList.map Char.toNat

/-- The component that a piece between slashes stands for behind the first piece. -/
def ofPiece? (piece : List Char) : Option Component :=
  if piece = [] ∨ piece = ['.'] then none
  else if piece = ['.', '.'] then some parent
  else some (name (String.ofList piece))

end Component

structure Path where
  text : String
deriving DecidableEq, Repr

namespace Path

def isAbsolute (path : Path) : Bool := path.text.toList.head? == some '/'

def components (path : Path) : List Component :=
  let pieces := Text.split '/' path.text.toList
  let body := pieces.filterMap Component.ofPiece?
  if path.isAbsolute then .root :: body
  else if pieces.head? == some ['.'] then .current :: body
  else body

/-- The path of a name in a directory; an absolute name stands for itself. -/
def join (directory : Path) (name : String) : Path :=
  if name.toList.head? == some '/' then ⟨name⟩
  else if directory.text.toList = [] ∨ directory.text.toList.getLast? = some '/' then
    ⟨directory.text ++ name⟩
  else ⟨directory.text ++ "/" ++ name⟩

def joinAll (directory : Path) (names : List String) : Path := names.foldl join directory

/-- The components behind those of another path, if that path leads there. -/
def componentsBelow? (path base : Path) : Option (List Component) :=
  if base.components.isPrefixOf path.components then
    some (path.components.drop base.components.length)
  else none

def joined (components : List Component) : String :=
  "/".intercalate (components.map Component.text)

/-- The name of a file in reports: its path below the root of a scan. A path that is not below the
root is its own name. -/
def idBelow (path root : Path) : String :=
  match path.componentsBelow? root with
  | some (first :: rest) => joined (first :: rest)
  | _ => path.text

/-- The place of a path in the order of paths: components are compared one after the other. -/
def key (path : Path) : List (List Nat) := path.components.map Component.key

/-- Whether a piece between slashes, behind the first piece, stands for no component. -/
def isVoid (piece : List Char) : Bool := piece == [] || piece == ['.']

/-- The path without its last component, written as it is; the root and the empty path have none
to lose. -/
def parent? (path : Path) : Option Path :=
  match Text.split '/' path.text.toList with
  | [] => none
  | first :: tail =>
    match tail.reverse.dropWhile isVoid with
    | [] => if first = [] then none else some ⟨""⟩
    | _ :: before =>
      let kept := first :: (before.dropWhile isVoid).reverse
      some ⟨if kept = [[]] then "/" else String.ofList (Text.join '/' kept)⟩

/-- The first `n` paths above a path, the nearest first. -/
def above (path : Path) : Nat → List Path
  | 0 => []
  | n + 1 =>
    match path.parent? with
    | none => []
    | some parent => parent :: above parent n

/-- A path and the paths above it, the nearest first; each has one component less than the one
before it. -/
def ancestors (path : Path) : List Path := path :: path.above path.components.length

/-- A file which is itself the root is reported by its whole path. -/
theorem idBelow_self (path : Path) : idBelow path path = path.text := by
  simp [idBelow, componentsBelow?]

end Path

end LineLint
