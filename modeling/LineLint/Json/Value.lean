/-! # JSON values

The members of an object keep their order, and a key may come more than once. A number is kept as
it is written. A string in which half of a surrogate pair stands alone is a string by the grammar
and yet has no text, so the text of a string is optional.
-/

namespace LineLint.Json

/-- The text of a string, if it has one. -/
abbrev Text := Option String

inductive Value where
  | null
  | boolean (value : Bool)
  | number (literal : String)
  | string (text : Text)
  | array (items : List Value)
  | object (members : List (Text × Value))
deriving Repr

namespace Value

def ofString (text : String) : Value := string (some text)

def digits (n : Nat) : String := String.ofList (Nat.toDigits 10 n)

def ofNat (n : Nat) : Value := number (digits n)

def ofMembers (members : List (String × Value)) : Value :=
  object (members.map fun (key, value) => (some key, value))

def toText? : Value → Option String
  | string text => text
  | _ => none

def natOfDigits (literal : List Char) : Nat :=
  literal.foldl (fun n c => n * 10 + (c.toNat - '0'.toNat)) 0

/-- The natural number that a value is: a number without sign, fraction and exponent. -/
def toNat? : Value → Option Nat
  | number literal =>
    if literal.toList.all Char.isDigit then some (natOfDigits literal.toList) else none
  | _ => none

/-- The values under a key, in order. -/
def under (key : String) (members : List (Text × Value)) : List Value :=
  (members.filter fun entry => entry.1 == some key).map Prod.snd

def unique? (key : String) (members : List (Text × Value)) : Option Value :=
  match under key members with
  | [value] => some value
  | _ => none

theorem toText?_ofString (text : String) : (ofString text).toText? = some text := rfl

theorem isDigit_of_mem_digits {n : Nat} {c : Char} (member : c ∈ (digits n).toList) :
    c.isDigit = true := by
  rw [digits, String.toList_ofList] at member
  exact Nat.isDigit_of_mem_toDigits (by decide) (by decide) member

theorem natOfDigits_digits (n : Nat) : natOfDigits (digits n).toList = n := by
  have digit : ∀ (n : Nat) (c : Char), n * 10 + (c.toNat - '0'.toNat) =
      10 * n + (c.toNat - '0'.toNat) := by
    intro n c
    rw [Nat.mul_comm]
  rw [digits, String.toList_ofList, natOfDigits]
  simp only [digit]
  exact Nat.ofDigitChars_ten_toDigits

theorem toNat?_ofNat (n : Nat) : (ofNat n).toNat? = some n := by
  have all : (digits n).toList.all Char.isDigit = true :=
    List.all_eq_true.mpr fun _ member => isDigit_of_mem_digits member
  rw [ofNat, toNat?, if_pos all, natOfDigits_digits]

/-- A zero in front of the digits of a number stands alone. -/
theorem eq_nil_of_digits_eq {n : Nat} {rest : List Char}
    (zero : (digits n).toList = '0' :: rest) : rest = [] := by
  rw [digits, String.toList_ofList] at zero
  induction n using Nat.strongRecOn generalizing rest with
  | ind n ih =>
    rw [Nat.toDigits_eq_if (by decide)] at zero
    split at zero
    · exact (List.cons.inj zero).2.symm
    · rename_i large
      cases leading : Nat.toDigits 10 (n / 10) with
      | nil => exact absurd leading Nat.toDigits_ne_nil
      | cons first others =>
        rw [leading] at zero
        obtain ⟨rfl, rfl⟩ := List.cons.inj zero
        -- What is in front of the last digit would be a single zero, but it is positive.
        have single := ih (n / 10) (by omega) leading
        have value := natOfDigits_digits (n / 10)
        rw [digits, String.toList_ofList, leading, single] at value
        change 0 = n / 10 at value
        omega

end Value

end LineLint.Json
