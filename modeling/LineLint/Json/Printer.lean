import LineLint.Json.Value

/-! # Writing JSON

Every item and every member stands on a line of its own, two spaces deeper than its container; an
empty container is written on one line. In strings only quotes, backslashes and control characters
below the space are escaped.
-/

namespace LineLint.Json

namespace Printer

def hexDigit (n : Nat) : Char := Nat.digitChar n

def escape (c : Char) : List Char :=
  if c = '"' then ['\\', '"']
  else if c = '\\' then ['\\', '\\']
  else if c = '\x08' then ['\\', 'b']
  else if c = '\t' then ['\\', 't']
  else if c = '\n' then ['\\', 'n']
  else if c = '\x0c' then ['\\', 'f']
  else if c = '\r' then ['\\', 'r']
  else if c.toNat < 0x20 then
    ['\\', 'u', '0', '0', hexDigit (c.toNat / 16), hexDigit (c.toNat % 16)]
  else [c]

/-- A string. One without a text is written as half of a surrogate pair. -/
def string : Text → List Char
  | some text => '"' :: text.toList.flatMap escape ++ ['"']
  | none => "\"\\ud800\"".toList

/-- The end of a line and the indentation of the next one. -/
def newline (depth : Nat) : List Char := '\n' :: List.replicate (2 * depth) ' '

mutual

/-- A value inside `depth` containers. -/
def value (depth : Nat) : Value → List Char
  | .null => "null".toList
  | .boolean true => "true".toList
  | .boolean false => "false".toList
  | .number literal => literal.toList
  | .string text => string text
  | .array [] => ['[', ']']
  | .array (item :: rest) =>
    '[' :: newline (depth + 1) ++ value (depth + 1) item ++ items (depth + 1) rest ++
      newline depth ++ [']']
  | .object [] => ['\x7b', '\x7d']
  | .object ((key, item) :: rest) =>
    '\x7b' :: newline (depth + 1) ++ string key ++ [':', ' '] ++ value (depth + 1) item ++
      members (depth + 1) rest ++ newline depth ++ ['\x7d']

/-- The items of an array behind the first. -/
def items (depth : Nat) : List Value → List Char
  | [] => []
  | item :: rest => ',' :: newline depth ++ value depth item ++ items depth rest

/-- The members of an object behind the first. -/
def members (depth : Nat) : List (Text × Value) → List Char
  | [] => []
  | (key, item) :: rest =>
    ',' :: newline depth ++ string key ++ [':', ' '] ++ value depth item ++ members depth rest

end

end Printer

def Value.text (value : Value) : String := String.ofList (Printer.value 0 value)

end LineLint.Json
