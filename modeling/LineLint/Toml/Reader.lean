import LineLint.Toml.Value

/-! # Reading TOML

A document is read into statements, one for each header and each entry. What the statements mean
together, and whether they may stand together, is decided afterwards. A reader takes what it reads
from the front of the text, or fails.
-/

namespace LineLint.Toml

abbrev Reader := StateT (List Char) Option

inductive Statement where
  /-- `[path]` -/
  | table (path : List String)
  /-- `[[path]]` -/
  | arrayTable (path : List String)
  /-- `path.key = value` -/
  | entry (path : List String) (key : String) (value : Value)
deriving Repr

structure Entry where
  path : List String
  key : String
  value : Value
deriving Repr

namespace Reader

/-- The next character, which is not taken. -/
def peek : Reader (Option Char) := do return (← get).head?

/-- Takes the longest run of characters that satisfy `p`. -/
def takeWhile (p : Char → Bool) : Reader (List Char) := do
  let text ← get
  set (text.dropWhile p)
  return text.takeWhile p

def exactly (wanted : String) : Reader Unit := do
  let text ← get
  if wanted.toList.isPrefixOf text then set (text.drop wanted.length) else failure

def optional {α : Type} (read : Reader α) : Reader (Option α) :=
  (do return some (← read)) <|> return none

/-- The rest of the text after what a function on texts reads. -/
def ofFunction {α : Type} (read : List Char → Option (α × List Char)) : Reader α := read

/-- Whether a character is white space inside a line. -/
def isSpace (c : Char) : Bool := c == ' ' || c == '\t'

/-- Whether a character may stand in a comment. -/
def isPlain (c : Char) : Bool := c == '\t' || (0x20 ≤ c.toNat && c.toNat != 0x7F)

/-- Skips white space inside a line. -/
def spaces : Reader Unit := discard (takeWhile isSpace)

/-- Reads the end of a line. -/
def lineBreak : Reader Unit := exactly "\n" <|> exactly "\r\n"

def comment : Reader Unit := do
  exactly "#"
  discard (takeWhile isPlain)

def lineEnd : Reader Unit := do
  if (← get).isEmpty then return ()
  lineBreak

/-- Reads what may follow on a line: white space, a comment, and its end. -/
def lineRest : Reader Unit := do
  spaces
  discard (optional comment)
  lineEnd

/-- What is left of a text after white space, comments and line ends; the text begins inside a
comment or not. -/
def afterGap (inComment : Bool) : List Char → List Char
  | [] => []
  | '\r' :: '\n' :: rest => afterGap false rest
  | c :: rest =>
    if c = '\n' then afterGap false rest
    else if inComment then (if isPlain c then afterGap true rest else c :: rest)
    else if isSpace c then afterGap false rest
    else if c = '#' then afterGap true rest
    else c :: rest

/-- Skips white space, comments and line ends. -/
def gap : Reader Unit := modify (afterGap false)

/-! ## Strings -/

def hexValue? (c : Char) : Option Nat :=
  if c.isDigit then some (c.toNat - '0'.toNat)
  else if 'a' ≤ c ∧ c ≤ 'f' then some (c.toNat - 'a'.toNat + 10)
  else if 'A' ≤ c ∧ c ≤ 'F' then some (c.toNat - 'A'.toNat + 10)
  else none

def hexNumber? (digits : List Char) : Option Nat :=
  digits.foldlM (fun n c => (hexValue? c).map (n * 16 + ·)) 0

def hexChar? (digits : List Char) : Option Char := do
  let n ← hexNumber? digits
  if n.isValidChar then some (Char.ofNat n) else none

/-- Reads an escape in a string between double quotes, behind its backslash. -/
def escape? : List Char → Option (Char × List Char)
  | 'b' :: rest => some ('\x08', rest)
  | 't' :: rest => some ('\t', rest)
  | 'n' :: rest => some ('\n', rest)
  | 'f' :: rest => some ('\x0c', rest)
  | 'r' :: rest => some ('\r', rest)
  | '"' :: rest => some ('"', rest)
  | '\\' :: rest => some ('\\', rest)
  | 'u' :: a :: b :: c :: d :: rest => (hexChar? [a, b, c, d]).map (·, rest)
  | 'U' :: a :: b :: c :: d :: e :: f :: g :: h :: rest =>
    (hexChar? [a, b, c, d, e, f, g, h]).map (·, rest)
  | _ => none

/-- Reads the rest of a string between double quotes, with the characters `done` back to front.
The characters of an escape that was already read are skipped. -/
def basicFrom (done : List Char) (skip : Nat) : List Char → Option (List Char × List Char)
  | [] => none
  | c :: rest =>
    match skip with
    | skip + 1 => basicFrom done skip rest
    | 0 =>
      if c = '"' then some (done.reverse, rest)
      else if c = '\\' then
        match escape? rest with
        | some (char, after) => basicFrom (char :: done) (rest.length - after.length) rest
        | none => none
      else if isPlain c then basicFrom (c :: done) 0 rest
      else none

/-- Reads the rest of a string between single quotes. -/
def literalFrom (done : List Char) : List Char → Option (List Char × List Char)
  | [] => none
  | c :: rest =>
    if c = '\'' then some (done.reverse, rest)
    else if isPlain c then literalFrom (c :: done) rest
    else none

/-- Where a reader stands in a string over several lines. -/
inductive Continuation where
  /-- In the text. -/
  | none
  /-- Behind a backslash that must be the last of its line. -/
  | beforeBreak
  /-- Behind the end of such a line, in front of the next text. -/
  | afterBreak
deriving DecidableEq

/-- The number of characters up to `limit` that equal `c` in front of a text. -/
def runLength (c : Char) (limit : Nat) (text : List Char) : Nat :=
  ((text.take limit).takeWhile (· == c)).length

/-- Reads the rest of a string over several lines between `quote` characters. Three to five quotes
end it, the last three of them as its end; fewer belong to the text. -/
def linesFrom (quote : Char) (done : List Char) (mode : Continuation) (skip : Nat) :
    List Char → Option (List Char × List Char)
  | [] => none
  | c :: rest =>
    match skip with
    | skip + 1 => linesFrom quote done mode skip rest
    | 0 =>
      if mode ≠ .none ∧ isSpace c then linesFrom quote done mode 0 rest
      else if c = '\n' then
        match mode with
        | .none => linesFrom quote ('\n' :: done) .none 0 rest
        | _ => linesFrom quote done .afterBreak 0 rest
      else if c = '\r' ∧ rest.head? = some '\n' then linesFrom quote done mode 0 rest
      else if mode = .beforeBreak then none
      else if c = quote then
        let quotes := runLength quote 5 (c :: rest)
        if 3 ≤ quotes then
          some ((List.replicate (quotes - 3) quote ++ done).reverse, (c :: rest).drop quotes)
        else linesFrom quote (c :: done) .none 0 rest
      else if c = '\\' ∧ quote = '"' then
        match escape? rest with
        | some (char, after) =>
          linesFrom quote (char :: done) .none (rest.length - after.length) rest
        | none => linesFrom quote done .beforeBreak 0 rest
      else if isPlain c then linesFrom quote (c :: done) .none 0 rest
      else none

/-- Reads a string between double quotes on one line. -/
def basicString : Reader String := do
  exactly "\""
  return String.ofList (← ofFunction (basicFrom [] 0))

/-- Reads a string between single quotes on one line. -/
def literalString : Reader String := do
  exactly "'"
  return String.ofList (← ofFunction (literalFrom []))

/-- Reads a string over several lines. A line end right after the opening quotes is dropped. -/
def linesString (opening : String) (quote : Char) : Reader String := do
  exactly opening
  discard (optional lineBreak)
  return String.ofList (← ofFunction (linesFrom quote [] .none 0))

def string : Reader String := do
  let text ← get
  if ['"', '"', '"'].isPrefixOf text then linesString "\"\"\"" '"'
  else if ['\'', '\'', '\''].isPrefixOf text then linesString "'''" '\''
  else basicString <|> literalString

/-! ## Numbers -/

/-- Whether every underscore stands between two digits. -/
def wellSeparated : List Char → Bool
  | [] => false
  | ['_'] => false
  | '_' :: '_' :: _ => false
  | [_] => true
  | _ :: rest => wellSeparated rest

/-- Reads digits, which underscores may separate. -/
def digitRun (isDigit : Char → Bool) : Reader (List Char) := do
  let run ← takeWhile fun c => isDigit c || c == '_'
  if run.head? ≠ some '_' ∧ wellSeparated run then return run.filter (· != '_') else failure

/-- Reads a sign; no sign stands for a positive number. -/
def sign : Reader Bool := do
  match ← peek with
  | some '+' => exactly "+"; return false
  | some '-' => exactly "-"; return true
  | _ => return false

/-- An integer, if it has at most 64 bits. -/
def integer (value : Int) : Reader Value :=
  if Int64.minValue.toInt ≤ value ∧ value ≤ Int64.maxValue.toInt then return .integer value
  else failure

def numberIn (base : Nat) (digits : List Char) : Nat :=
  digits.foldl (fun n c => n * base + (hexValue? c).getD 0) 0

/-- Reads an integer in a base that its first two characters name. -/
def basedInteger (mark : String) (base : Nat) : Reader Value := do
  exactly mark
  let digits ← digitRun fun c => ((hexValue? c).map (decide <| · < base)).getD false
  integer (numberIn base digits)

/-- Reads the digits after a point, if there is one. -/
def fraction : Reader (Option (List Char)) := do
  if (← peek) = some '.' then
    exactly "."
    return some (← digitRun Char.isDigit)
  return none

def exponent : Reader (Option Int) := do
  let next ← peek
  if next = some 'e' ∨ next = some 'E' then
    discard (exactly "e" <|> exactly "E")
    let negative ← sign
    let size := Int.ofNat (digitsValue (← digitRun Char.isDigit))
    return some (if negative then -size else size)
  return none

/-- Reads a decimal number: an integer, or a float that is not too large. A number below zero may
be too large; it is minus infinity then. -/
def decimalNumber : Reader Value := do
  let negative ← sign
  let whole ← digitRun Char.isDigit
  if whole.head? = some '0' ∧ whole.length ≠ 1 then failure
  let fractionDigits ← fraction
  let exponent ← exponent
  if fractionDigits.isNone ∧ exponent.isNone then
    let size := Int.ofNat (digitsValue whole)
    integer (if negative then -size else size)
  else
    let places := fractionDigits.getD []
    let value := Binary64.ofDecimal negative (digitsValue (whole ++ places))
      (exponent.getD 0 - Int.ofNat places.length)
    if value = Binary64.infinity false then failure
    return .float value

/-- Reads infinity or not a number. -/
def specialNumber : Reader Value := do
  let negative ← sign
  (do exactly "inf"; return .float (Binary64.infinity negative)) <|>
    (do exactly "nan"; return .float (Binary64.nan negative))

def number : Reader Value := do
  let text ← get
  if ['0', 'x'].isPrefixOf text then basedInteger "0x" 16
  else if ['0', 'o'].isPrefixOf text then basedInteger "0o" 8
  else if ['0', 'b'].isPrefixOf text then basedInteger "0b" 2
  else specialNumber <|> decimalNumber

/-! ## Keys and values -/

/-- How deep arrays and inline tables may lie in one another, and how long a path of keys may be.
-/
def depthLimit : Nat := 79

/-- Whether a character can stand in a key without quotes. -/
def isBareKeyChar (c : Char) : Bool := c.isAlphanum || c == '_' || c == '-'

def simpleKey : Reader String := do
  match ← peek with
  | some '"' => basicString
  | some '\'' => literalString
  | _ =>
    let chars ← takeWhile isBareKeyChar
    if chars.isEmpty then failure else return String.ofList chars

/-- Reads at most `fuel` items, with a separator between any two of them. What follows a separator
is not taken if no item does. -/
def separated {α : Type} (item : Reader α) (separator : Reader Unit) : Nat → Reader (List α)
  | 0 => return []
  | fuel + 1 => do
    match ← optional item with
    | none => return []
    | some first =>
      let text ← get
      match ← optional separator with
      | none => return [first]
      | some () =>
        match ← separated item separator fuel with
        | [] => set text; return [first]
        | rest => return first :: rest

def separatedItems {α : Type} (item : Reader α) (separator : Reader Unit) : Reader (List α) := do
  separated item separator ((← get).length + 1)

/-- Reads a path of keys with dots between them: the keys on the way, and the last one. -/
def keyPath : Reader (List String × String) := do
  let part : Reader String := do
    spaces
    let key ← simpleKey
    spaces
    return key
  let parts ← separatedItems part (exactly ".")
  match parts.getLast? with
  | some last => if parts.length ≤ depthLimit then return (parts.dropLast, last) else failure
  | none => failure

/-- Reads a value that holds no other. -/
def scalar : Reader Value := do
  match ← peek with
  | some '"' | some '\'' => return .string (← string)
  | some 't' => exactly "true"; return .boolean true
  | some 'f' => exactly "false"; return .boolean false
  | _ => (do return .datetime (← ofFunction (Datetime.read? .document))) <|> number

/-- Reads the items of an array, behind its opening bracket. -/
def arrayRest (item : Reader Value) : Reader Value := do
  let padded : Reader Value := do
    gap
    let value ← item
    gap
    return value
  let items ← separatedItems padded (exactly ",")
  if !items.isEmpty then discard (optional (exactly ","))
  gap
  exactly "]"
  return .array items

/-- Reads the entries of an inline table, behind its opening brace. -/
def inlineRest (item : Reader Value) : Reader (List Entry) := do
  let entry : Reader Entry := do
    let (path, key) ← keyPath
    exactly "="
    spaces
    let value ← item
    spaces
    return ⟨path, key, value⟩
  let entries ← separatedItems entry (exactly ",")
  spaces
  exactly "\x7d"
  return entries

/-- Reads a value in which arrays and inline tables lie at most `depth` deep; `collect` makes a
table of the entries of an inline table. -/
def value (collect : List Entry → Option Value) : Nat → Reader Value
  | 0 => scalar
  | depth + 1 => do
    match ← peek with
    | some '[' => exactly "["; arrayRest (value collect depth)
    | some '\x7b' =>
      exactly "\x7b"
      let entries ← inlineRest (value collect depth)
      match collect entries with
      | some table => return table
      | none => failure
    | _ => scalar

/-! ## Documents -/

def header : Reader Statement := do
  if ['[', '['].isPrefixOf (← get) then
    exactly "[["
    let (path, last) ← keyPath
    exactly "]]"
    lineRest
    return .arrayTable (path ++ [last])
  else
    exactly "["
    let (path, last) ← keyPath
    exactly "]"
    lineRest
    return .table (path ++ [last])

def entry (collect : List Entry → Option Value) : Reader Statement := do
  let (path, key) ← keyPath
  exactly "="
  spaces
  let value ← value collect depthLimit
  lineRest
  return .entry path key value

/-- Reads at most `fuel` lines with a header or an entry or neither of them. -/
def statementsFrom (collect : List Entry → Option Value) : Nat → Reader (List Statement)
  | 0 => failure
  | fuel + 1 => do
    spaces
    match ← peek with
    | none => return []
    | some '#' => comment; lineEnd; statementsFrom collect fuel
    | some '\n' | some '\r' => lineBreak; statementsFrom collect fuel
    | some '[' =>
      let first ← header
      return first :: (← statementsFrom collect fuel)
    | some _ =>
      let first ← entry collect
      return first :: (← statementsFrom collect fuel)

def withoutMark : List Char → List Char
  | '\uFEFF' :: rest => rest
  | text => text

end Reader

def Statement.ofText? (collect : List Entry → Option Value) (text : List Char) :
    Option (List Statement) :=
  let text := Reader.withoutMark text
  ((Reader.statementsFrom collect (text.length + 1)).run text).map Prod.fst

end LineLint.Toml
