import LineLint.Json.Token
import LineLint.Text.Split
import Mathlib.Data.List.TakeWhile

/-! # How JSON numbers are spelled

A number is a sign, digits, a fraction and an exponent, of which only the digits must be there. Main
statement: the test for a number holds of exactly these texts.
-/

namespace LineLint.Json

namespace Token

/-- Whether a text is one digit or more. -/
def IsDigits (text : List Char) : Prop := text ≠ [] ∧ ∀ c ∈ text, c.isDigit = true

/-- Whether a text is nothing, or a point and digits. -/
def IsFraction (text : List Char) : Prop :=
  text = [] ∨ ∃ digits, IsDigits digits ∧ text = '.' :: digits

/-- Whether a text is nothing, or an `e` of either case, a sign or none, and digits. -/
def IsExponent (text : List Char) : Prop :=
  text = [] ∨ ∃ mark ∈ ['e', 'E'], ∃ sign ∈ [[], ['+'], ['-']], ∃ digits, IsDigits digits ∧
    text = mark :: (sign ++ digits)

/-- Whether a text is a number: a minus sign or none, digits of which the first is a zero only where
it stands alone, a fraction and an exponent. -/
inductive IsNumeral : List Char → Prop
  | mk {sign whole fraction exponent : List Char} (signed : sign = [] ∨ sign = ['-'])
      (digits : IsDigits whole) (zero : whole.head? = some '0' → whole = ['0'])
      (fractional : IsFraction fraction) (scaled : IsExponent exponent) :
      IsNumeral (sign ++ whole ++ fraction ++ exponent)

variable {text rest digits : List Char}

theorem afterDigits?_append (run : IsDigits digits)
    (stop : ∀ c ∈ rest.head?, c.isDigit = false) : afterDigits? (digits ++ rest) = some rest := by
  obtain ⟨nonempty, all⟩ := run
  cases digits with
  | nil => exact absurd rfl nonempty
  | cons c digits =>
    obtain ⟨first, others⟩ := List.forall_mem_cons.mp all
    rw [List.cons_append, afterDigits?, if_pos first, (Text.takeWhile_append_stop others stop).2]

theorem exists_of_afterDigits? (after : afterDigits? text = some rest) :
    ∃ digits, IsDigits digits ∧ text = digits ++ rest := by
  cases text with
  | nil => cases after
  | cons c text =>
    rw [afterDigits?] at after
    split at after
    · rename_i first
      cases after
      have others : ∀ d ∈ text.takeWhile Char.isDigit, d.isDigit = true := fun d member => by
        simpa using List.mem_takeWhile_imp member
      refine ⟨c :: text.takeWhile Char.isDigit, ⟨by simp, ?_⟩, ?_⟩
      · exact List.forall_mem_cons.mpr ⟨first, others⟩
      · rw [List.cons_append, List.takeWhile_append_dropWhile]
    · cases after

theorem isDigits_iff : afterDigits? text = some [] ↔ IsDigits text := by
  constructor
  · intro after
    obtain ⟨digits, run, rfl⟩ := exists_of_afterDigits? after
    rwa [List.append_nil]
  · intro run
    have all : afterDigits? (text ++ []) = some [] := afterDigits?_append run (by simp)
    rwa [List.append_nil] at all

theorem IsDigits.ne_sign (run : IsDigits text) : text.head? ≠ some '+' ∧ text.head? ≠ some '-' := by
  cases text with
  | nil => simp
  | cons c text =>
    have first := run.2 c List.mem_cons_self
    constructor <;> rintro ⟨⟩ <;> cases first

theorem isExponent_iff : isExponent text = true ↔ IsExponent text := by
  have spelled : ∀ (mark : Char) (sign : List Char) {digits : List Char}, mark ∈ ['e', 'E'] →
      sign ∈ [[], ['+'], ['-']] → (afterDigits? digits == some []) = true →
        IsExponent (mark :: (sign ++ digits)) := fun _ _ _ marked signed run =>
    .inr ⟨_, marked, _, signed, _, isDigits_iff.mp (by simpa using run), rfl⟩
  constructor
  · fun_cases isExponent text with
    | case1 => exact fun _ => .inl rfl
    | case2 => exact spelled 'e' ['+'] (by simp) (by simp)
    | case3 => exact spelled 'e' ['-'] (by simp) (by simp)
    | case4 => exact spelled 'e' [] (by simp) (by simp)
    | case5 => exact spelled 'E' ['+'] (by simp) (by simp)
    | case6 => exact spelled 'E' ['-'] (by simp) (by simp)
    | case7 => exact spelled 'E' [] (by simp) (by simp)
    | case8 => exact fun scaled => absurd scaled (by simp)
  · rintro (rfl | ⟨mark, marked, sign, signed, digits, run, rfl⟩)
    · rfl
    · have ends : (afterDigits? digits == some []) = true := by
        rw [isDigits_iff.mpr run]
        rfl
      obtain ⟨noPlus, noMinus⟩ := run.ne_sign
      simp only [List.mem_cons, List.not_mem_nil, or_false] at marked signed
      rcases signed with rfl | rfl | rfl
      · -- The digits are not taken for a sign.
        rcases marked with rfl | rfl <;>
          (rw [List.nil_append, isExponent, ends] <;> rintro _ rfl <;> contradiction)
      · rcases marked with rfl | rfl <;> exact ends
      · rcases marked with rfl | rfl <;> exact ends

theorem IsExponent.stops (scaled : IsExponent text) : ∀ c ∈ text.head?, c.isDigit = false := by
  rcases scaled with rfl | ⟨mark, marked, _, _, _, _, rfl⟩
  · simp
  · simp only [List.mem_cons, List.not_mem_nil, or_false] at marked
    rcases marked with rfl | rfl <;> simp

theorem isNumberEnd_iff :
    isNumberEnd text = true ↔
      ∃ fraction exponent, IsFraction fraction ∧ IsExponent exponent ∧
        text = fraction ++ exponent := by
  constructor
  · fun_cases isNumberEnd text with
    | case1 rest =>
      intro ends
      obtain ⟨exponent, after, scaled⟩ := (Option.any_eq_true _ _).mp ends
      obtain ⟨digits, run, rfl⟩ := exists_of_afterDigits? after
      exact ⟨'.' :: digits, exponent, .inr ⟨digits, run, rfl⟩, isExponent_iff.mp scaled, rfl⟩
    | case2 => exact fun ends => ⟨[], text, .inl rfl, isExponent_iff.mp ends, rfl⟩
  · rintro ⟨_, exponent, rfl | ⟨digits, run, rfl⟩, scaled, rfl⟩
    · rw [isNumberEnd]
      · exact isExponent_iff.mpr scaled
      · rintro rest rfl
        rcases scaled with empty | ⟨mark, marked, _, _, _, _, same⟩
        · cases empty
        · simp [← (List.cons.inj same).1] at marked
    · rw [List.cons_append, isNumberEnd, afterDigits?_append run scaled.stops]
      exact isExponent_iff.mpr scaled

/-- What follows the whole part of a number begins with a point, an `e` or nothing. -/
theorem stops_of_fraction {fraction exponent : List Char} (fractional : IsFraction fraction)
    (scaled : IsExponent exponent) : ∀ c ∈ (fraction ++ exponent).head?, c.isDigit = false := by
  rcases fractional with rfl | ⟨digits, _, rfl⟩
  · exact scaled.stops
  · simp

/-- A whole part has no leading zero unless it is zero. -/
theorem isUnsigned_iff :
    isUnsigned text = true ↔
      ∃ whole fraction exponent, IsDigits whole ∧ (whole.head? = some '0' → whole = ['0']) ∧
        IsFraction fraction ∧ IsExponent exponent ∧ text = whole ++ (fraction ++ exponent) := by
  constructor
  · fun_cases isUnsigned text with
    | case1 rest =>
      intro ends
      obtain ⟨fraction, exponent, fractional, scaled, rfl⟩ := isNumberEnd_iff.mp ends
      exact ⟨['0'], fraction, exponent, ⟨by simp, by simp⟩, fun _ => rfl, fractional, scaled, rfl⟩
    | case2 _ noZero =>
      intro unsigned
      obtain ⟨rest, after, ends⟩ := (Option.any_eq_true _ _).mp unsigned
      obtain ⟨whole, run, rfl⟩ := exists_of_afterDigits? after
      obtain ⟨fraction, exponent, fractional, scaled, rfl⟩ := isNumberEnd_iff.mp ends
      refine ⟨whole, fraction, exponent, run, fun zero => ?_, fractional, scaled, rfl⟩
      cases whole with
      | nil => cases zero
      | cons c whole =>
        cases zero
        exact absurd rfl (noZero _)
  · rintro ⟨whole, fraction, exponent, run, zero, fractional, scaled, rfl⟩
    have ends : isNumberEnd (fraction ++ exponent) = true :=
      isNumberEnd_iff.mpr ⟨fraction, exponent, fractional, scaled, rfl⟩
    by_cases leading : whole.head? = some '0'
    · rw [zero leading]
      exact ends
    · rw [isUnsigned, afterDigits?_append run (stops_of_fraction fractional scaled)]
      · exact ends
      · intro rest same
        cases whole with
        | nil => exact run.1 rfl
        | cons c whole => exact leading (congrArg some (List.cons.inj same).1)

/-- The recogniser accepts the numerals of the JSON grammar and nothing else. -/
theorem isNumber_iff : isNumber text = true ↔ IsNumeral text := by
  constructor
  · fun_cases isNumber text with
    | case1 rest =>
      intro unsigned
      obtain ⟨whole, fraction, exponent, run, zero, fractional, scaled, rfl⟩ :=
        isUnsigned_iff.mp unsigned
      simpa using IsNumeral.mk (.inr rfl) run zero fractional scaled
    | case2 =>
      intro unsigned
      obtain ⟨whole, fraction, exponent, run, zero, fractional, scaled, rfl⟩ :=
        isUnsigned_iff.mp unsigned
      simpa using IsNumeral.mk (.inl rfl) run zero fractional scaled
  · rintro ⟨signed, run, zero, fractional, scaled⟩
    rename_i sign whole fraction exponent
    have unsigned : isUnsigned (whole ++ (fraction ++ exponent)) = true :=
      isUnsigned_iff.mpr ⟨whole, fraction, exponent, run, zero, fractional, scaled, rfl⟩
    rw [List.append_assoc, List.append_assoc]
    rcases signed with rfl | rfl
    · rw [List.nil_append, isNumber]
      · exact unsigned
      · intro rest same
        cases whole with
        | nil => exact run.1 rfl
        | cons c whole => exact run.ne_sign.2 (congrArg some (List.cons.inj same).1)
    · exact unsigned

theorem isNumeric_of_isDigit {c : Char} (digit : c.isDigit = true) : isNumeric c = true := by
  simp [isNumeric, digit]

theorem IsDigits.isNumeric (run : IsDigits text) : ∀ c ∈ text, isNumeric c = true :=
  fun c member => isNumeric_of_isDigit (run.2 c member)

theorem IsFraction.isNumeric (fractional : IsFraction text) : ∀ c ∈ text, isNumeric c = true := by
  rcases fractional with rfl | ⟨digits, run, rfl⟩
  · simp
  · exact List.forall_mem_cons.mpr ⟨rfl, run.isNumeric⟩

theorem IsExponent.isNumeric (scaled : IsExponent text) : ∀ c ∈ text, isNumeric c = true := by
  rcases scaled with rfl | ⟨mark, marked, sign, signed, digits, run, rfl⟩
  · simp
  · simp only [List.mem_cons, List.not_mem_nil, or_false] at marked signed
    refine List.forall_mem_cons.mpr ⟨?_, List.forall_mem_append.mpr ⟨?_, run.isNumeric⟩⟩
    · rcases marked with rfl | rfl <;> rfl
    · rcases signed with rfl | rfl | rfl <;> simp [Token.isNumeric]

theorem IsNumeral.isNumeric (numeral : IsNumeral text) : ∀ c ∈ text, isNumeric c = true := by
  obtain ⟨signed, run, _, fractional, scaled⟩ := numeral
  simp only [List.forall_mem_append]
  refine ⟨⟨⟨?_, run.isNumeric⟩, fractional.isNumeric⟩, scaled.isNumeric⟩
  rcases signed with rfl | rfl <;> simp [Token.isNumeric]

theorem IsNumeral.begins (numeral : IsNumeral text) :
    ∃ c rest, text = c :: rest ∧ (c = '-' ∨ c.isDigit = true) := by
  obtain @⟨_, whole, fraction, exponent, rfl | rfl, run, _, _, _⟩ := numeral
  · cases whole with
    | nil => exact absurd rfl run.1
    | cons c whole =>
      exact ⟨c, whole ++ fraction ++ exponent, rfl, .inr (run.2 c List.mem_cons_self)⟩
  · exact ⟨_, _, rfl, .inl rfl⟩

end Token

end LineLint.Json
