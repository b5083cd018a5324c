import LineLint.Json.Token
import LineLint.Text.Utf8

/-! # How JSON strings are spelled

A character of a string is spelled by itself, by a letter behind a backslash or by its form in
UTF-16, where a large character takes two units. Main statements: a string is read exactly where it
is spelled, and its text is the one that its pieces stand for.
-/

namespace LineLint.Json

namespace Piece

/-- Whether pieces of a string are spelled so between the quotes: a character by itself or by a
letter behind a backslash, a unit by its four hexadecimal digits. -/
inductive Spells : List Piece → List Char → Prop
  | nil : Spells [] []
  | plain {c : Char} {pieces : List Piece} {body : List Char} (printable : 0x20 ≤ c.toNat)
      (noQuote : c ≠ '"') (noBackslash : c ≠ '\\') (others : Spells pieces body) :
      Spells (char c :: pieces) (c :: body)
  | letter {l c : Char} {pieces : List Piece} {body : List Char} (known : escaped? l = some c)
      (others : Spells pieces body) : Spells (char c :: pieces) ('\\' :: l :: body)
  | unit {a b c d : Char} {n : Nat} {pieces : List Piece} {body : List Char}
      (digits : hex? a b c d = some n) (others : Spells pieces body) :
      Spells (unit n :: pieces) ('\\' :: 'u' :: a :: b :: c :: d :: body)

/-- The first half of the pair for a character that is too large for one unit. -/
def highHalf (c : Char) : Nat := 0xD800 + (c.toNat - 0x10000) / 0x400

/-- The second half of the pair for a character that is too large for one unit. -/
def lowHalf (c : Char) : Nat := 0xDC00 + (c.toNat - 0x10000) % 0x400

/-- Whether pieces stand for a text: each character for itself or by its form in UTF-16. -/
inductive StandFor : List Piece → List Char → Prop
  | nil : StandFor [] []
  | char {c : Char} {pieces : List Piece} {text : List Char} (others : StandFor pieces text) :
      StandFor (char c :: pieces) (c :: text)
  | small {c : Char} {pieces : List Piece} {text : List Char} (small : c.toNat < 0x10000)
      (others : StandFor pieces text) : StandFor (unit c.toNat :: pieces) (c :: text)
  | pair {c : Char} {pieces : List Piece} {text : List Char} (large : 0x10000 ≤ c.toNat)
      (others : StandFor pieces text) :
      StandFor (unit (highHalf c) :: unit (lowHalf c) :: pieces) (c :: text)

variable {pieces : List Piece} {body text rest : List Char}

theorem read?_plain {c : Char} (printable : 0x20 ≤ c.toNat) (noQuote : c ≠ '"')
    (noBackslash : c ≠ '\\') (rest : List Char) :
    read? (c :: rest) = (read? rest).map fun found => (char c :: found.1, found.2) := by
  rw [read?, if_neg (by simp [printable, noBackslash])]
  · cases read? rest <;> rfl
  · exact noQuote
  · exact fun _ _ _ _ _ same _ => noBackslash same
  · exact fun _ _ same _ => noBackslash same

theorem read?_letter {l c : Char} (known : escaped? l = some c) (rest : List Char) :
    read? ('\\' :: l :: rest) = (read? rest).map fun found => (char c :: found.1, found.2) := by
  rw [read?, known]
  · cases read? rest <;> rfl
  · rintro _ _ _ _ _ rfl
    cases known

theorem read?_unit {a b c d : Char} {n : Nat} (digits : hex? a b c d = some n)
    (rest : List Char) :
    read? ('\\' :: 'u' :: a :: b :: c :: d :: rest) =
      (read? rest).map fun found => (unit n :: found.1, found.2) := by
  rw [read?, digits]
  cases read? rest <;> rfl

/-- A string is read up to its closing quote. -/
theorem Spells.read?_eq (spelled : Spells pieces body) (rest : List Char) :
    read? (body ++ '"' :: rest) = some (pieces, rest) := by
  induction spelled with
  | nil => simp [read?]
  | plain printable noQuote noBackslash _ ih =>
    rw [List.cons_append, read?_plain printable noQuote noBackslash, ih]
    rfl
  | letter known _ ih =>
    rw [List.cons_append, List.cons_append, read?_letter known, ih]
    rfl
  | unit digits _ ih =>
    simp only [List.cons_append]
    rw [read?_unit digits, ih]
    rfl

/-- What is read of a string is spelled in front of a quote. -/
theorem spells_of_read? (read : read? text = some (pieces, rest)) :
    ∃ body, text = body ++ '"' :: rest ∧ Spells pieces body := by
  fun_induction read? text generalizing pieces rest with
  | case1 => cases read
  | case2 =>
    cases read
    exact ⟨[], rfl, .nil⟩
  | case3 a b c d tail ih =>
    simp only [Option.bind_eq_bind, Option.bind_eq_some_iff, Option.some.injEq, Prod.mk.injEq,
      Prod.exists] at read
    obtain ⟨n, digits, pieces, _, inner, rfl, rfl⟩ := read
    obtain ⟨body, rfl, spelled⟩ := ih inner
    exact ⟨'\\' :: 'u' :: a :: b :: c :: d :: body, rfl, .unit digits spelled⟩
  | case4 l tail _ ih =>
    simp only [Option.bind_eq_bind, Option.bind_eq_some_iff, Option.some.injEq, Prod.mk.injEq,
      Prod.exists] at read
    obtain ⟨c, known, pieces, _, inner, rfl, rfl⟩ := read
    obtain ⟨body, rfl, spelled⟩ := ih inner
    exact ⟨'\\' :: l :: body, rfl, .letter known spelled⟩
  | case5 => cases read
  | case6 c tail noQuote _ _ fits ih =>
    simp only [Option.bind_eq_bind, Option.bind_eq_some_iff, Option.some.injEq, Prod.mk.injEq,
      Prod.exists] at read
    obtain ⟨pieces, _, inner, rfl, rfl⟩ := read
    obtain ⟨body, rfl, spelled⟩ := ih inner
    rw [not_or, Nat.not_lt] at fits
    exact ⟨c :: body, rfl, .plain fits.1 noQuote fits.2 spelled⟩

theorem hexDigit?_lt {c : Char} {n : Nat} (digit : hexDigit? c = some n) : n < 16 := by
  unfold hexDigit? at digit
  split at digit
  · rename_i decimal
    have bounds : 48 ≤ c.toNat ∧ c.toNat ≤ 57 := Char.isDigit_iff_toNat.mp decimal
    cases digit
    change c.toNat - 48 < 16
    omega
  · split at digit
    · rename_i small
      have upper : c.toNat ≤ 102 := small.2
      cases digit
      change c.toNat - 97 + 10 < 16
      omega
    · split at digit
      · rename_i large
        have upper : c.toNat ≤ 70 := large.2
        cases digit
        change c.toNat - 65 + 10 < 16
        omega
      · cases digit

theorem hex?_lt {a b c d : Char} {n : Nat} (digits : hex? a b c d = some n) :
    n < 0x10000 := by
  simp only [hex?, Option.bind_eq_bind, Option.bind_eq_some_iff, Option.some.injEq] at digits
  obtain ⟨i, first, j, second, k, third, l, fourth, rfl⟩ := digits
  have := hexDigit?_lt first
  have := hexDigit?_lt second
  have := hexDigit?_lt third
  have := hexDigit?_lt fourth
  omega

/-- Four digits make no more than sixteen bits. -/
theorem Spells.unit_lt (spelled : Spells pieces body) {n : Nat}
    (member : Piece.unit n ∈ pieces) :
    n < 0x10000 := by
  induction spelled with
  | nil => cases member
  | plain _ _ _ _ ih => exact ih (by simpa using member)
  | letter _ _ ih => exact ih (by simpa using member)
  | unit digits _ ih =>
    rcases List.mem_cons.mp member with same | later
    · cases same
      exact hex?_lt digits
    · exact ih later

section Halves

variable {c : Char} {n m : Nat}

theorem not_isHigh_toNat (c : Char) : isHigh c.toNat = false := by
  have valid : c.toNat.isValidChar := c.valid
  simp only [isHigh, Bool.and_eq_false_iff, decide_eq_false_iff_not]
  omega

theorem not_isLow_toNat (c : Char) : isLow c.toNat = false := by
  have valid : c.toNat.isValidChar := c.valid
  simp only [isLow, Bool.and_eq_false_iff, decide_eq_false_iff_not]
  omega

theorem isHigh_highHalf (c : Char) : isHigh (highHalf c) = true := by
  have valid : c.toNat.isValidChar := c.valid
  rw [isHigh, Bool.and_eq_true, decide_eq_true_eq, decide_eq_true_eq, highHalf]
  omega

theorem isLow_lowHalf (c : Char) : isLow (lowHalf c) = true := by
  rw [isLow, Bool.and_eq_true, decide_eq_true_eq, decide_eq_true_eq, lowHalf]
  omega

/-- A character outside the basic plane is recovered from its two surrogates. -/
theorem ofPair_halves (large : 0x10000 ≤ c.toNat) : ofPair (highHalf c) (lowHalf c) = c := by
  have same : 0x10000 + (highHalf c - 0xD800) * 0x400 + (lowHalf c - 0xDC00) = c.toNat := by
    simp only [highHalf, lowHalf]
    omega
  rw [ofPair, same, Char.ofNat_toNat]

/-- Two halves are the halves of the character that they make. -/
theorem halves_ofPair (high : isHigh n = true) (low : isLow m = true) :
    0x10000 ≤ (ofPair n m).toNat ∧ highHalf (ofPair n m) = n ∧ lowHalf (ofPair n m) = m := by
  simp only [isHigh, isLow, Bool.and_eq_true, decide_eq_true_eq] at high low
  have value : (ofPair n m).toNat = 0x10000 + (n - 0xD800) * 0x400 + (m - 0xDC00) :=
    Text.Utf8.toNat_ofNat (.inr (by omega))
  rw [highHalf, lowHalf, value]
  omega

end Halves

theorem StandFor.text?_eq (means : StandFor pieces text) : text? pieces = some text := by
  induction means with
  | nil => rfl
  | char _ ih =>
    rw [text?, ih]
    rfl
  | @small c _ _ _ _ ih =>
    rw [text?.eq_def]
    simp only [not_isHigh_toNat, not_isLow_toNat, Char.ofNat_toNat, ih, Bool.false_eq_true,
      if_false, Option.map_some]
  | @pair c _ _ large _ ih =>
    rw [text?.eq_def]
    simp only [isHigh_highHalf, isLow_lowHalf, ofPair_halves large, ih, if_true, Option.map_some]

/-- Pieces mean a text only where no surrogate is left alone. -/
theorem standFor_of_text? (units : ∀ n, unit n ∈ pieces → n < 0x10000)
    (means : text? pieces = some text) : StandFor pieces text := by
  fun_induction text? pieces generalizing text with
  | case1 =>
    cases means
    exact .nil
  | case2 c pieces ih =>
    obtain ⟨others, inner, rfl⟩ := Option.map_eq_some_iff.mp means
    exact .char (ih (fun n later => units n (List.mem_cons_of_mem _ later)) inner)
  | case3 n high m pieces low ih =>
    obtain ⟨others, inner, rfl⟩ := Option.map_eq_some_iff.mp means
    have later : ∀ k, unit k ∈ pieces → k < 0x10000 := fun k member =>
      units k (List.mem_cons_of_mem _ (List.mem_cons_of_mem _ member))
    obtain ⟨large, first, second⟩ := halves_ofPair high low
    have pair := StandFor.pair large (ih later inner)
    rwa [first, second] at pair
  | case4 => cases means
  | case5 => cases means
  | case6 => cases means
  | case7 n pieces notHigh notLow ih =>
    obtain ⟨others, inner, rfl⟩ := Option.map_eq_some_iff.mp means
    have small : n < 0x10000 := units n List.mem_cons_self
    have value : (Char.ofNat n).toNat = n := by
      apply Text.Utf8.toNat_ofNat
      simp only [isHigh, isLow, Bool.and_eq_true, decide_eq_true_eq] at notHigh notLow
      unfold Nat.isValidChar
      omega
    have alone := StandFor.small (c := Char.ofNat n) (by rwa [value])
      (ih (fun n later => units n (List.mem_cons_of_mem _ later)) inner)
    rwa [value] at alone

/-- The text of a spelled string is the one that its pieces stand for. -/
theorem Spells.text?_eq_some_iff (spelled : Spells pieces body) :
    text? pieces = some text ↔ StandFor pieces text :=
  ⟨standFor_of_text? fun _ => spelled.unit_lt, StandFor.text?_eq⟩

end Piece

end LineLint.Json
