import LineLint.Toml.Value

/-! # Writing TOML values

A value is written on one line where its strings allow that: tables inline with sorted keys,
floats always with a point, datetimes as a table with one private key. A string is written in the
simplest of four quotings that holds it unescaped, and escaped if none does.
-/

namespace LineLint.Toml

/-- The key under which a datetime is held where only strings, numbers and tables are known. -/
def datetimeKey : String := "$__toml_private_datetime"

namespace Printer

/-- Whether a character can stand in no quoting as it is. A tab and a line feed can. -/
def isControl (c : Char) : Bool :=
  (c.toNat < 0x20 && c != '\t' && c != '\n') || c.toNat == 0x7F

/-- The length of the longest run of a character, with `run` of it right before the text. -/
def longestRunFrom (c : Char) (run : Nat) : List Char → Nat
  | [] => run
  | d :: rest =>
    if d = c then longestRunFrom c (run + 1) rest else max run (longestRunFrom c 0 rest)

def longestRun (c : Char) (text : List Char) : Nat := longestRunFrom c 0 text

/-- The hexadecimal digit of a number below sixteen. -/
def hexDigit (n : Nat) : Char := (Nat.digitChar n).toUpper

def escapeChar (c : Char) : List Char :=
  match c with
  | '\x08' => ['\\', 'b']
  | '\t' => ['\\', 't']
  | '\n' => ['\\', 'n']
  | '\x0c' => ['\\', 'f']
  | '\r' => ['\\', 'r']
  | '"' => ['\\', '"']
  | '\\' => ['\\', '\\']
  | c =>
    let n := c.toNat
    ['\\', 'u', hexDigit (n / 4096 % 16), hexDigit (n / 256 % 16), hexDigit (n / 16 % 16),
      hexDigit (n % 16)]

/-- Whether a character is escaped between double quotes, after `quotes` double quotes in a row
where `maxQuotes` are allowed. -/
def mustEscape (multiline : Bool) (maxQuotes quotes : Nat) (c : Char) : Bool :=
  isControl c || c == '\\' || c == '\t' || (c == '\n' && !multiline) ||
    (c == '"' && maxQuotes ≤ quotes)

/-- The text between double quotes, after `quotes` double quotes in a row. -/
def escapeFrom (multiline : Bool) (maxQuotes quotes : Nat) : List Char → List Char
  | [] => []
  | c :: rest =>
    if mustEscape multiline maxQuotes quotes c then
      escapeChar c ++ escapeFrom multiline maxQuotes 0 rest
    else c :: escapeFrom multiline maxQuotes (if c = '"' then quotes + 1 else 0) rest

/-- A text between double quotes on one line. -/
def basic (text : List Char) : List Char := ['"'] ++ escapeFrom false 0 0 text ++ ['"']

/-- A text between single quotes on one line. -/
def literal (text : List Char) : List Char := ['\''] ++ text ++ ['\'']

/-- The line feed in front of a text over several lines. -/
def leadingBreak (text : List Char) : List Char := if text.contains '\n' then ['\n'] else []

/-- A text between three double quotes. -/
def basicLines (text : List Char) : List Char :=
  ['"', '"', '"'] ++ leadingBreak text ++ escapeFrom true 2 0 text ++ ['"', '"', '"']

/-- A text between three single quotes. -/
def literalLines (text : List Char) : List Char :=
  ['\'', '\'', '\''] ++ leadingBreak text ++ text ++ ['\'', '\'', '\'']

/-- A string in the quoting that suits it. -/
def quoted (text : List Char) : List Char :=
  let control := text.any isControl
  let breaks := text.contains '\n'
  let escape := text.contains '\\'
  let doubles := longestRun '"' text
  let singles := longestRun '\'' text
  if !control && !escape && doubles == 0 && !breaks then basic text
  else if !control && singles == 0 && !breaks then literal text
  else if !control && !escape && doubles ≤ 2 then basicLines text
  else if !control && singles ≤ 2 then literalLines text
  else if breaks then basicLines text
  else basic text

/-- Whether a character can stand in a key without quotes. -/
def isBareKeyChar (c : Char) : Bool := c.isAlphanum || c == '_' || c == '-'

/-- A key, quoted where that is needed. -/
def key (text : List Char) : List Char :=
  let control := text.any fun c => isControl c || c == '\n'
  if !text.isEmpty && text.all isBareKeyChar then text
  else if !control && !text.contains '\\' && !text.contains '"' then basic text
  else if !control && !text.contains '\'' then literal text
  else basic text

/-- A float: the shortest decimal that is read back, never with an exponent. -/
def float (x : Binary64) : String :=
  let sign := if x.isNegative then "-" else ""
  match x.classify with
  | .nan => sign ++ "nan"
  | .infinite => sign ++ "inf"
  | .zero => sign ++ "0.0"
  | .finite significand power =>
    let decimal := Binary64.shortest significand power
    sign ++ decimal.text ++ (if 0 ≤ decimal.exponent then ".0" else "")

def bracketed (items : List (List Char)) : List Char :=
  ['['] ++ [',', ' '].intercalate items ++ [']']

/-- The entries of an inline table, sorted by their keys, between braces. -/
def braced (entries : List (String × List Char)) : List Char :=
  if entries.isEmpty then ['\x7b', '\x7d']
  else
    let sorted := entries.mergeSort fun a b => a.1 ≤ b.1
    let texts := sorted.map fun entry => key entry.1.toList ++ [' ', '=', ' '] ++ entry.2
    ['\x7b', ' '] ++ [',', ' '].intercalate texts ++ [' ', '\x7d']

mutual

def chars : Value → List Char
  | .string text => quoted text.toList
  | .integer value => (toString value).toList
  | .float value => (float value).toList
  | .boolean value => (toString value).toList
  | .datetime value => braced [(datetimeKey, quoted value.text.toList)]
  | .array items => bracketed (itemChars items)
  | .table entries => braced (entryChars entries)

def itemChars : List Value → List (List Char)
  | [] => []
  | item :: rest => chars item :: itemChars rest

/-- The texts of the values of a table, with their keys. -/
def entryChars : List (String × Value) → List (String × List Char)
  | [] => []
  | (key, value) :: rest => (key, chars value) :: entryChars rest

end

end Printer

def Value.text (value : Value) : String := String.ofList (Printer.chars value)

end LineLint.Toml
