import LineLint.FileTree.Lookup
import LineLint.Ignore.Pattern

/-! # Ignore files

An ignore file holds a pattern on each line. A line that is no pattern is left out and noted. The
file is read up to the first line that is not UTF-8.
-/

namespace LineLint.Ignore

inductive Fault where
  | badGlob (error : LineError)
  | notUtf8
deriving Repr

def Fault.message : Fault → String
  | badGlob error =>
    "error parsing glob '" ++ String.ofList error.line ++ "': " ++ error.error.message
  | notUtf8 => FileError.notUtf8.message

structure Note where
  line : Nat
  fault : Fault
deriving Repr

/-- The patterns of an ignore file, in order, and what is wrong with other lines. -/
structure File where
  patterns : List Pattern
  notes : List Note
deriving Repr

namespace File

def empty : File := ⟨[], []⟩

/-- A line without the carriage return in front of its line feed. -/
def withoutReturn (line : List UInt8) : List UInt8 :=
  if line.getLast? = some 0x0D then line.dropLast else line

def octetLines (octets : List UInt8) : List (List UInt8) :=
  let pieces := Text.split 0x0A octets
  pieces.dropLast.map withoutReturn ++ (pieces.getLast?.toList.filter fun piece => piece ≠ [])

/-- A first line without the byte order marks in front. -/
def withoutMarks (number : Nat) (line : List Char) : List Char :=
  if number = 1 then line.dropWhile (· == '\uFEFF') else line

def ofLines (number : Nat) : List (List UInt8) → File
  | [] => empty
  | octets :: rest =>
    match Text.Utf8.decode? octets with
    | none => ⟨[], [⟨number, .notUtf8⟩]⟩
    | some line =>
      let later := ofLines (number + 1) rest
      match Pattern.ofLine? (withoutMarks number line) with
      | .ok none => later
      | .ok (some pattern) => { later with patterns := pattern :: later.patterns }
      | .error error => { later with notes := ⟨number, .badGlob error⟩ :: later.notes }

def ofOctets (octets : List UInt8) : File := ofLines 1 (octetLines octets)

/-- The ignore file to which a path leads. What cannot be read holds nothing. -/
def load (tree : FileTree) (start : Place) (path : Path) : File :=
  match tree.read start path with
  | .ok octets => ofOctets octets
  | .error _ => empty

/-- The messages about a file under its path. A file that is only cut short by octets that are not
UTF-8 is not worth one. -/
def messages (file : File) (path : Path) : List String :=
  match file.notes with
  | [⟨_, .notUtf8⟩] => []
  | notes =>
    notes.map fun note =>
      path.text ++ ": line " ++ toString note.line ++ ": " ++ note.fault.message

end File

end LineLint.Ignore
