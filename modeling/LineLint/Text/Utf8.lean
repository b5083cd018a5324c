/-! # UTF-8

Decoding runs octet by octet. Between two octets the decoder stands either at the border of two
characters or inside one, where it knows what the begun character is worth so far, how many octets
it still owes, and which octets may come next. The bounds on the next octet are what rules out
overlong forms, surrogates and values above `U+10FFFF`.

`decode?` refuses malformed input. `decodeLossy` puts one replacement character for every maximal
run of octets that begins a character and cannot be completed, and for every octet that begins
none.
-/

namespace LineLint.Text.Utf8

/-- A begun character: its bits so far, the octets it still owes, and the bounds of the next. -/
structure Begun where
  bits : Nat
  owed : Nat
  low : Nat
  high : Nat
deriving DecidableEq, Repr

/-- What one octet does where it is allowed. -/
inductive Step where
  /-- It ends a character. -/
  | ends (c : Char)
  /-- It leaves a character begun. -/
  | begins (state : Begun)
deriving DecidableEq, Repr

/-- The first octet of a character. -/
def first? (octet : UInt8) : Option Step :=
  let b := octet.toNat
  if b < 0x80 then some (.ends (Char.ofNat b))
  else if 0xC2 ≤ b ∧ b ≤ 0xDF then some (.begins ⟨b - 0xC0, 1, 0x80, 0xBF⟩)
  else if b = 0xE0 then some (.begins ⟨0, 2, 0xA0, 0xBF⟩)
  else if b = 0xED then some (.begins ⟨b - 0xE0, 2, 0x80, 0x9F⟩)
  else if 0xE1 ≤ b ∧ b ≤ 0xEF then some (.begins ⟨b - 0xE0, 2, 0x80, 0xBF⟩)
  else if b = 0xF0 then some (.begins ⟨0, 3, 0x90, 0xBF⟩)
  else if 0xF1 ≤ b ∧ b ≤ 0xF3 then some (.begins ⟨b - 0xF0, 3, 0x80, 0xBF⟩)
  else if b = 0xF4 then some (.begins ⟨4, 3, 0x80, 0x8F⟩)
  else none

def next? (state : Begun) (octet : UInt8) : Option Step :=
  let b := octet.toNat
  if state.low ≤ b ∧ b ≤ state.high then
    let bits := state.bits * 64 + (b - 0x80)
    if state.owed ≤ 1 then some (.ends (Char.ofNat bits))
    else some (.begins ⟨bits, state.owed - 1, 0x80, 0xBF⟩)
  else none

/-- The octet at a border or inside a begun character. -/
def step? : Option Begun → UInt8 → Option Step
  | none, octet => first? octet
  | some state, octet => next? state octet

/-- What stands for octets that are no character. -/
def replacement : Char := '\uFFFD'

/-- The characters that one octet completes when nothing is refused, and where the decoder then
stands. A refused octet completes a replacement character for what was begun before it, if
anything, and is then read as a first octet. -/
def advance (state : Option Begun) (octet : UInt8) : List Char × Option Begun :=
  match step? state octet with
  | some (.ends c) => ([c], none)
  | some (.begins begun) => ([], some begun)
  | none =>
    match state with
    | none => ([replacement], none)
    | some _ =>
      match first? octet with
      | some (.ends c) => ([replacement, c], none)
      | some (.begins begun) => ([replacement], some begun)
      | none => ([replacement, replacement], none)

/-- Decodes the octets behind a state, with the characters `done` held back to front. -/
def decodeLossyFrom (done : List Char) (state : Option Begun) : List UInt8 → List Char
  | [] => (if state.isSome then replacement :: done else done).reverse
  | octet :: rest =>
    let (chars, state) := advance state octet
    decodeLossyFrom (chars.reverse ++ done) state rest

/-- Decodes any octets, with replacement characters where they are not UTF-8. -/
def decodeLossy (octets : List UInt8) : List Char := decodeLossyFrom [] none octets

/-- Decodes the octets behind a state, if they are UTF-8. -/
def decodeFrom? (done : List Char) (state : Option Begun) : List UInt8 → Option (List Char)
  | [] => if state.isSome then none else some done.reverse
  | octet :: rest =>
    match step? state octet with
    | some (.ends c) => decodeFrom? (c :: done) none rest
    | some (.begins begun) => decodeFrom? done (some begun) rest
    | none => none

def decode? (octets : List UInt8) : Option (List Char) := decodeFrom? [] none octets

def encode (text : List Char) : List UInt8 := text.flatMap String.utf8EncodeChar

def byteOrderMark : List UInt8 := [0xEF, 0xBB, 0xBF]

def dropMark (octets : List UInt8) : List UInt8 :=
  if byteOrderMark.isPrefixOf octets then octets.drop 3 else octets

theorem toNat_ofNat {n : Nat} (valid : n.isValidChar) : (Char.ofNat n).toNat = n := by
  rw [Char.ofNat, dif_pos valid]
  rfl

end LineLint.Text.Utf8
