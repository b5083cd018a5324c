/-! # Columns

Matches are found at byte offsets of the UTF-8 form of a line, and reported at columns, which
count characters from one.
-/

namespace LineLint.Text

def byteLength : List Char → Nat
  | [] => 0
  | c :: rest => c.utf8Size + byteLength rest

@[simp] theorem byteLength_nil : byteLength [] = 0 := rfl

@[simp] theorem byteLength_cons (c : Char) (rest : List Char) :
    byteLength (c :: rest) = c.utf8Size + byteLength rest := rfl

@[simp] theorem byteLength_append (front back : List Char) :
    byteLength (front ++ back) = byteLength front + byteLength back := by
  induction front with
  | nil => simp
  | cons c front ih => simp [ih, Nat.add_assoc]

@[simp] theorem byteLength_reverse (text : List Char) :
    byteLength text.reverse = byteLength text := by
  induction text with
  | nil => rfl
  | cons c rest ih => simp [ih, Nat.add_comm]

/-- The number of characters before a byte offset, if the offset lies between two characters or
at an end of the text. -/
def charsBefore? : List Char → Nat → Option Nat
  | _, 0 => some 0
  | [], _ + 1 => none
  | c :: rest, offset + 1 =>
    if c.utf8Size ≤ offset + 1 then (charsBefore? rest (offset + 1 - c.utf8Size)).map (· + 1)
    else none

/-- The column of a byte offset: one more than the characters before it. An offset inside a
character or past the end counts the whole text. -/
def columnAt (text : List Char) (offset : Nat) : Nat :=
  (charsBefore? text offset).getD text.length + 1

end LineLint.Text
