import LineLint.Json.Value

/-! # JSON tokens

A JSON text is first cut into tokens: punctuation, words, numbers and strings, with blank space
between them. Whether the tokens make a value is not asked here.
-/

namespace LineLint.Json

inductive Token where
  | openBracket
  | closeBracket
  | openBrace
  | closeBrace
  | comma
  | colon
  | null
  | boolean (value : Bool)
  | number (literal : String)
  | string (text : Text)
deriving DecidableEq, Repr

/-- A piece of a string: a character, or an escape that gives one unit of UTF-16. -/
inductive Piece where
  | char (c : Char)
  | unit (n : Nat)
deriving DecidableEq, Repr

namespace Piece

/-- Whether a unit is the first half of a pair. -/
def isHigh (n : Nat) : Bool := 0xD800 ≤ n && n ≤ 0xDBFF

/-- Whether a unit is the second half of a pair. -/
def isLow (n : Nat) : Bool := 0xDC00 ≤ n && n ≤ 0xDFFF

def ofPair (high low : Nat) : Char :=
  Char.ofNat (0x10000 + (high - 0xD800) * 0x400 + (low - 0xDC00))

/-- The text of pieces, unless half of a pair stands alone. -/
def text? : List Piece → Option (List Char)
  | [] => some []
  | char c :: rest => (text? rest).map (c :: ·)
  | unit n :: rest =>
    if isHigh n then
      match rest with
      | unit m :: rest => if isLow m then (text? rest).map (ofPair n m :: ·) else none
      | _ => none
    else if isLow n then none
    else (text? rest).map (Char.ofNat n :: ·)

def hexDigit? (c : Char) : Option Nat :=
  if c.isDigit then some (c.toNat - '0'.toNat)
  else if 'a' ≤ c ∧ c ≤ 'f' then some (c.toNat - 'a'.toNat + 10)
  else if 'A' ≤ c ∧ c ≤ 'F' then some (c.toNat - 'A'.toNat + 10)
  else none

/-- The value of four hexadecimal digits. -/
def hex? (a b c d : Char) : Option Nat := do
  some ((((← hexDigit? a) * 16 + (← hexDigit? b)) * 16 + (← hexDigit? c)) * 16 + (← hexDigit? d))

def escaped? : Char → Option Char
  | '"' => some '"'
  | '\\' => some '\\'
  | '/' => some '/'
  | 'b' => some '\x08'
  | 'f' => some '\x0c'
  | 'n' => some '\n'
  | 'r' => some '\r'
  | 't' => some '\t'
  | _ => none

/-- The pieces of a string behind its opening quote, and what follows its closing quote. -/
def read? : List Char → Option (List Piece × List Char)
  | [] => none
  | '"' :: rest => some ([], rest)
  | '\\' :: 'u' :: a :: b :: c :: d :: rest => do
    let n ← hex? a b c d
    let (pieces, rest) ← read? rest
    some (unit n :: pieces, rest)
  | '\\' :: c :: rest => do
    let c ← escaped? c
    let (pieces, rest) ← read? rest
    some (char c :: pieces, rest)
  | c :: rest =>
    if c.toNat < 0x20 ∨ c = '\\' then none
    else do
      let (pieces, rest) ← read? rest
      some (char c :: pieces, rest)

theorem length_read? {text rest : List Char} {pieces : List Piece}
    (found : read? text = some (pieces, rest)) : rest.length < text.length := by
  fun_induction read? text generalizing pieces rest with
  | case1 => simp at found
  | case2 => simp_all
  | case3 a b c d tail ih =>
    simp only [Option.bind_eq_bind, Option.bind_eq_some_iff, Option.some.injEq, Prod.mk.injEq,
      Prod.exists] at found
    obtain ⟨_, _, _, _, inner, -, rfl⟩ := found
    have := ih inner
    simp only [List.length_cons]
    omega
  | case4 c tail _ ih =>
    simp only [Option.bind_eq_bind, Option.bind_eq_some_iff, Option.some.injEq, Prod.mk.injEq,
      Prod.exists] at found
    obtain ⟨_, _, _, _, inner, -, rfl⟩ := found
    have := ih inner
    simp only [List.length_cons]
    omega
  | case5 => simp at found
  | case6 c tail _ _ _ _ ih =>
    simp only [Option.bind_eq_bind, Option.bind_eq_some_iff, Option.some.injEq, Prod.mk.injEq,
      Prod.exists] at found
    obtain ⟨_, _, inner, -, rfl⟩ := found
    have := ih inner
    simp only [List.length_cons]
    omega

end Piece

namespace Token

/-- Whether a character is blank space between tokens. -/
def isSpace (c : Char) : Bool := c == ' ' || c == '\n' || c == '\r' || c == '\t'

def isNumeric (c : Char) : Bool :=
  c.isDigit || c == '-' || c == '+' || c == '.' || c == 'e' || c == 'E'

/-- What follows the digits at the front of a text, if there is one. -/
def afterDigits? : List Char → Option (List Char)
  | [] => none
  | c :: rest => if c.isDigit then some (rest.dropWhile Char.isDigit) else none

/-- Whether a text is an exponent or nothing. -/
def isExponent : List Char → Bool
  | [] => true
  | 'e' :: '+' :: rest => afterDigits? rest == some []
  | 'e' :: '-' :: rest => afterDigits? rest == some []
  | 'e' :: rest => afterDigits? rest == some []
  | 'E' :: '+' :: rest => afterDigits? rest == some []
  | 'E' :: '-' :: rest => afterDigits? rest == some []
  | 'E' :: rest => afterDigits? rest == some []
  | _ => false

/-- Whether a text is what may follow the whole part of a number. -/
def isNumberEnd : List Char → Bool
  | '.' :: rest => (afterDigits? rest).any isExponent
  | rest => isExponent rest

/-- Whether a text is a number without its sign. A zero in front stands alone. -/
def isUnsigned : List Char → Bool
  | '0' :: rest => isNumberEnd rest
  | rest => (afterDigits? rest).any isNumberEnd

def isNumber : List Char → Bool
  | '-' :: rest => isUnsigned rest
  | rest => isUnsigned rest

def ofWord? (word : List Char) : Option Token :=
  if word = "null".toList then some null
  else if word = "true".toList then some (boolean true)
  else if word = "false".toList then some (boolean false)
  else none

def ofMark? : Char → Option Token
  | '[' => some openBracket
  | ']' => some closeBracket
  | '\x7b' => some openBrace
  | '\x7d' => some closeBrace
  | ',' => some comma
  | ':' => some colon
  | _ => none

/-- The token whose first character is `c`, and what follows it in the text. -/
def read? (c : Char) (rest : List Char) : Option (Token × List Char) :=
  if c = '"' then
    (Piece.read? rest).map fun (pieces, rest) =>
      (string ((Piece.text? pieces).map String.ofList), rest)
  else if c.isAlpha then
    (ofWord? (c :: rest.takeWhile Char.isAlpha)).map fun token =>
      (token, rest.dropWhile Char.isAlpha)
  else if isNumeric c then
    let literal := c :: rest.takeWhile isNumeric
    if isNumber literal then some (number (String.ofList literal), rest.dropWhile isNumeric)
    else none
  else (ofMark? c).map fun token => (token, rest)

theorem length_dropWhile (p : Char → Bool) (text : List Char) :
    (text.dropWhile p).length ≤ text.length :=
  (List.dropWhile_sublist p).length_le

theorem length_read? {c : Char} {rest after : List Char} {token : Token}
    (found : read? c rest = some (token, after)) : after.length ≤ rest.length := by
  simp only [read?] at found
  split at found
  · simp only [Option.map_eq_some_iff, Prod.mk.injEq, Prod.exists] at found
    obtain ⟨pieces, tail, inner, -, rfl⟩ := found
    exact Nat.le_of_lt (Piece.length_read? inner)
  · split at found
    · simp only [Option.map_eq_some_iff, Prod.mk.injEq] at found
      obtain ⟨_, _, -, rfl⟩ := found
      exact length_dropWhile _ _
    · split at found
      · split at found
        · simp only [Option.some.injEq, Prod.mk.injEq] at found
          obtain ⟨-, rfl⟩ := found
          exact length_dropWhile _ _
        · simp at found
      · simp only [Option.map_eq_some_iff, Prod.mk.injEq] at found
        obtain ⟨_, _, -, rfl⟩ := found
        exact Nat.le_refl _

def ofText? : List Char → Option (List Token)
  | [] => some []
  | c :: rest =>
    if isSpace c then ofText? rest
    else
      match found : read? c rest with
      | none => none
      | some (token, after) =>
        have : after.length ≤ rest.length := length_read? found
        (ofText? after).map (token :: ·)
termination_by text => text.length

end Token

end LineLint.Json
