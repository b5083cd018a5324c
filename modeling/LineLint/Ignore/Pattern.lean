import LineLint.Ignore.GlobReader
import LineLint.Text.Blank

/-! # Patterns of ignore files

A line of an ignore file is a pattern. `!` in front makes it keep what it matches, a slash at the
end makes it match directories only, and a slash in front or inside ties it to the directory of the
file; without one it matches at any depth. Of several patterns that match, the last one counts.
-/

namespace LineLint.Ignore

/-- What ignore files say about a path. -/
inductive Verdict where
  | ignored
  | kept
deriving DecidableEq, Repr

structure Pattern where
  glob : Glob
  /-- What it says about the paths that it matches. -/
  verdict : Verdict
  onlyDirectories : Bool
deriving Repr

/-- A line that is no pattern. -/
structure LineError where
  /-- The line without the blanks at its end. -/
  line : List Char
  error : GlobError
deriving Repr

/-- A line without the blanks at its end, unless the last of them is a space behind a backslash. -/
def trimEnd (line : List Char) : List Char :=
  if ['\\', ' '].isSuffixOf line then line
  else (line.reverse.dropWhile Text.isBlank).reverse

/-- What the marks in front of a line say. -/
structure Marks where
  verdict : Verdict
  /-- Whether the pattern is tied to the directory of the file. -/
  isAnchored : Bool
  /-- What follows the marks. -/
  text : List Char
deriving Repr

/-- The marks in front of a line. A backslash takes away the meaning of `!` and `#`. -/
def Marks.ofLine : List Char → Marks
  | '\\' :: '!' :: rest => ⟨.ignored, false, '!' :: rest⟩
  | '\\' :: '#' :: rest => ⟨.ignored, false, '#' :: rest⟩
  | '!' :: '/' :: rest => ⟨.kept, true, rest⟩
  | '!' :: rest => ⟨.kept, false, rest⟩
  | '/' :: rest => ⟨.ignored, true, rest⟩
  | line => ⟨.ignored, false, line⟩

/-- The text of a glob with its path and its end as a pattern means them: without a slash it
matches at any depth, and two stars behind the last slash match what is in a directory, but not
the directory. -/
def globText (isAnchored : Bool) (text : List Char) : List Char :=
  let anyDepth := "**/".toList
  let text :=
    if isAnchored || text.contains '/' || text == "**".toList then text else anyDepth ++ text
  if "/**".toList.isSuffixOf text then text ++ "/*".toList else text

def Pattern.ofTrimmed (line : List Char) : Except GlobError Pattern :=
  let marks := Marks.ofLine line
  let onlyDirectories := marks.text.getLast? == some '/'
  let text :=
    if onlyDirectories then
      let text := marks.text.dropLast
      if text.getLast? == some '\\' then text.dropLast else text
    else marks.text
  (Glob.ofText (globText marks.isAnchored text)).map fun glob =>
    ⟨glob, marks.verdict, onlyDirectories⟩

/-- The pattern that a line is; a comment and a blank line are none. -/
def Pattern.ofLine? (line : List Char) : Except LineError (Option Pattern) :=
  if line.head? = some '#' then .ok none
  else
    let trimmed := trimEnd line
    if trimmed = [] then .ok none
    else
      match Pattern.ofTrimmed trimmed with
      | .ok pattern => .ok (some pattern)
      | .error error => .error ⟨trimmed, error⟩

def Pattern.isMatch (pattern : Pattern) (path : List UInt8) (isDirectory : Bool) : Bool :=
  (isDirectory || !pattern.onlyDirectories) && pattern.glob.isMatch path

def verdict? (patterns : List Pattern) (path : List UInt8) (isDirectory : Bool) : Option Verdict :=
  (patterns.reverse.find? (·.isMatch path isDirectory)).map Pattern.verdict

/-- The later pattern decides, and an earlier one only where the later ones are silent. -/
theorem verdict?_append (front back : List Pattern) (path : List UInt8) (isDirectory : Bool) :
    verdict? (front ++ back) path isDirectory =
      (verdict? back path isDirectory).or (verdict? front path isDirectory) := by
  simp [verdict?, List.find?_append, Option.map_or]

end LineLint.Ignore
