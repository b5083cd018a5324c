import LineLint.Binary64
import LineLint.Toml.Datetime

/-! # TOML values

The entries of a table keep the order in which they were written; its keys are distinct.
-/

namespace LineLint.Toml

inductive Value where
  | string (text : String)
  | integer (value : Int)
  | float (value : Binary64)
  | boolean (value : Bool)
  | datetime (value : Datetime)
  | array (items : List Value)
  | table (entries : List (String × Value))
deriving Repr

namespace Value

mutual

def isSame : Value → Value → Bool
  | string a, string b => a == b
  | integer a, integer b => a == b
  | float a, float b => a == b
  | boolean a, boolean b => a == b
  | datetime a, datetime b => a == b
  | array a, array b => areSame a b
  | table a, table b => areSameEntries a b
  | _, _ => false

/-- Whether two arrays hold the same items. -/
def areSame : List Value → List Value → Bool
  | [], [] => true
  | a :: rest, b :: others => a.isSame b && areSame rest others
  | _, _ => false

/-- Whether two tables hold the same entries in the same order. -/
def areSameEntries : List (String × Value) → List (String × Value) → Bool
  | [], [] => true
  | (key, a) :: rest, (other, b) :: others =>
    key == other && a.isSame b && areSameEntries rest others
  | _, _ => false

end

mutual

/-- The comparison decides equality, through lists and tables as well. -/
theorem isSame_iff : ∀ {a b : Value}, a.isSame b = true ↔ a = b
  | array a, b => by cases b <;> simp [isSame, areSame_iff]
  | table a, b => by cases b <;> simp [isSame, areSameEntries_iff]
  | string a, b | integer a, b | float a, b | boolean a, b | datetime a, b => by
    cases b <;> simp [isSame]

theorem areSame_iff : ∀ {a b : List Value}, areSame a b = true ↔ a = b
  | [], b => by cases b <;> simp [areSame]
  | a :: rest, b => by cases b <;> simp [areSame, a.isSame_iff, areSame_iff]

theorem areSameEntries_iff : ∀ {a b : List (String × Value)}, areSameEntries a b = true ↔ a = b
  | [], b => by cases b <;> simp [areSameEntries]
  | (key, a) :: rest, b => by
    cases b <;> simp [areSameEntries, a.isSame_iff, areSameEntries_iff, Prod.ext_iff]

end

instance : DecidableEq Value := fun a b => decidable_of_iff (a.isSame b = true) isSame_iff

def find? (entries : List (String × Value)) (key : String) : Option Value :=
  (entries.find? fun entry => entry.1 == key).map Prod.snd

def toInteger? : Value → Option Int
  | integer value => some value
  | _ => none

theorem toInteger?_eq_some_iff {v : Value} {i : Int} : v.toInteger? = some i ↔ v = integer i := by
  cases v <;> simp [toInteger?]

end Value

end LineLint.Toml
