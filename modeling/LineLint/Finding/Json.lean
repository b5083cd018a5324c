import LineLint.Finding
import LineLint.Json.Reader

/-! # Findings as JSON

A finding is an object, and so is its location in it. When a finding is read, the members may come
in any order and others are ignored, but every member must be there exactly once; either object
may also be given as the array of its members in order. A rule or a severity is a string, or an
object that holds nothing but that string as a key, with `null` under it.
-/

namespace LineLint

open Json (Value)

def Location.toJson (location : Location) : Value :=
  .ofMembers
    [("file", .ofString location.file), ("line", .ofNat location.line),
      ("column", .ofNat location.column)]

/-- The members of a value that has these members: the values under the keys of an object, each of
which comes once, or the items of an array of the same length. -/
def Json.Value.fields? (keys : List String) : Value → Option (List Value)
  | .object members =>
    if members.all fun entry => entry.1.isSome then
      keys.mapM fun key => Value.unique? key members
    else none
  | .array items => if items.length = keys.length then some items else none
  | _ => none

/-- The word that a value stands for. -/
def Json.Value.word? : Value → Option String
  | .string text => text
  | .object [(key, .null)] => key
  | _ => none

/-- A line or a column, which is below `2 ^ 64`. -/
def Location.position? (value : Value) : Option Nat :=
  value.toNat?.filter (· < UInt64.size)

def Location.ofJson? (value : Value) : Option Location :=
  match value.fields? ["file", "line", "column"] with
  | some [file, line, column] => do
    some ⟨← file.toText?, ← position? line, ← position? column⟩
  | _ => none

namespace Finding

def toJson (f : Finding) : Value :=
  .ofMembers
    [("rule", .ofString f.kind.name), ("severity", .ofString f.severity.name),
      ("location", f.location.toJson), ("text", .ofString f.text),
      ("message", .ofString f.message)]

def ofJson? (value : Value) : Option Finding :=
  match value.fields? ["rule", "severity", "location", "text", "message"] with
  | some [rule, severity, location, text, message] => do
    some
      ⟨← rule.word?.bind RuleKind.ofName?, ← severity.word?.bind Severity.ofName?,
        ← Location.ofJson? location, ← text.toText?, ← message.toText?⟩
  | _ => none

def ofText? (text : List Char) : Option Finding := (Value.ofText? text).bind ofJson?

end Finding

end LineLint
