import LineLint.Text.Utf8
import Mathlib.Algebra.Group.Nat.Defs
import Mathlib.Data.List.Basic

/-! # What decoding keeps of the octets

No octet of ASCII is ever part of a longer character, so that each of them survives decoding as the
character that it is, whatever stands around it, and cuts the text in two that are decoded apart. No
other octets give a character of ASCII. What was encoded is decoded to itself.
-/

namespace LineLint.Text.Utf8

namespace Begun

/-- The least value of a character that begins like this. -/
def least (state : Begun) : Nat :=
  64 ^ (state.owed - 1) * (64 * state.bits + (state.low - 0x80))

/-- The least value above all characters that begin like this. -/
def bound (state : Begun) : Nat :=
  64 ^ (state.owed - 1) * (64 * state.bits + (state.high - 0x80) + 1)

/-- A begun character ends as a character beyond ASCII, whichever of the allowed octets come. -/
structure Sound (state : Begun) : Prop where
  owed_eq : state.owed = 1 ∨ state.owed = 2 ∨ state.owed = 3
  low_ge : 0x80 ≤ state.low
  high_le : state.high ≤ 0xBF
  beyond : 0x80 ≤ state.least
  scalar : state.bound ≤ 0xD800 ∨ 0xE000 ≤ state.least ∧ state.bound ≤ 0x110000

end Begun

section Steps

variable {octet : UInt8} {state : Begun}

theorem first?_of_ascii (ascii : octet.toNat < 0x80) :
    first? octet = some (.ends (Char.ofNat octet.toNat)) := by
  simp [first?, ascii]

theorem first?_of_not_ascii (other : 0x80 ≤ octet.toNat) :
    first? octet = none ∨ ∃ begun, first? octet = some (.begins begun) ∧ begun.Sound := by
  rw [first?, if_neg (by omega)]
  split_ifs
  case neg => exact .inl rfl
  all_goals
    refine .inr ⟨_, rfl, ?_⟩
    constructor <;> dsimp only [Begun.least, Begun.bound, Nat.reduceSub, Nat.reducePow] <;> omega

theorem next?_of_ascii (sound : state.Sound) (ascii : octet.toNat < 0x80) :
    next? state octet = none := by
  have low := sound.low_ge
  rw [next?, if_neg (by omega)]

/-- A further octet ends a character, goes on with it or breaks the sequence. -/
theorem next?_of_not_ascii (sound : state.Sound) :
    next? state octet = none ∨ (∃ c, next? state octet = some (.ends c) ∧ 0x80 ≤ c.toNat) ∨
      ∃ begun, next? state octet = some (.begins begun) ∧ begun.Sound := by
  obtain ⟨bits, owed, low, high⟩ := state
  obtain ⟨owedEq, lowGe, highLe, beyond, scalar⟩ := sound
  dsimp only [Begun.least, Begun.bound] at owedEq lowGe highLe beyond scalar
  dsimp only [next?]
  rw [Nat.mul_comm bits 64]
  split_ifs with allowed last
  · refine .inr (.inl ⟨_, rfl, ?_⟩)
    obtain rfl : owed = 1 := by omega
    simp only [Nat.sub_self, Nat.pow_zero, Nat.one_mul] at beyond scalar
    have valid : (64 * bits + (octet.toNat - 0x80)).isValidChar := by
      unfold Nat.isValidChar
      omega
    rw [toNat_ofNat valid]
    omega
  · refine .inr (.inr ⟨_, rfl, ?_⟩)
    -- With one octet less to come, the values that are left are some of those from before.
    have above : 64 * bits + (low - 0x80) ≤ 64 * bits + (octet.toNat - 0x80) := by omega
    have below : 64 * bits + (octet.toNat - 0x80) ≤ 64 * bits + (high - 0x80) := by omega
    generalize 64 * bits + (low - 0x80) = lowest at above beyond scalar
    generalize 64 * bits + (high - 0x80) = highest at below scalar
    generalize 64 * bits + (octet.toNat - 0x80) = next at above below
    rcases owedEq with rfl | rfl | rfl
    · omega
    all_goals
      simp only [Nat.reduceSub, Nat.reducePow] at beyond scalar
      refine ⟨by simp, Nat.le_refl _, Nat.le_refl _, ?_, ?_⟩
      · dsimp only [Begun.least, Nat.reduceSub, Nat.reducePow]
        omega
      · dsimp only [Begun.least, Begun.bound, Nat.reduceSub, Nat.reducePow]
        omega
  · exact .inl rfl

end Steps

/-- What is put for a character that is begun where the octets end. -/
def unfinished (state : Option Begun) : List Char := if state.isSome then [replacement] else []

section Decoding

variable {octet : UInt8} {state : Option Begun}

/-- An ASCII octet ends whatever sequence was begun. -/
theorem advance_of_ascii (sound : ∀ begun ∈ state, begun.Sound) (ascii : octet.toNat < 0x80) :
    advance state octet = (unfinished state ++ [Char.ofNat octet.toNat], none) := by
  cases state with
  | none => simp [advance, step?, first?_of_ascii ascii, unfinished]
  | some begun =>
    have refused := next?_of_ascii (sound begun rfl) ascii
    simp [advance, step?, refused, first?_of_ascii ascii, unfinished]

/-- Octets beyond ASCII give characters beyond ASCII, and what they leave begun can only end so. -/
theorem advance_of_not_ascii (sound : ∀ begun ∈ state, begun.Sound)
    (other : 0x80 ≤ octet.toNat) :
    (∀ c ∈ (advance state octet).1, 0x80 ≤ c.toNat) ∧
      ∀ begun ∈ (advance state octet).2, begun.Sound := by
  have beyond : 0x80 ≤ replacement.toNat := by decide
  cases state with
  | none =>
    rcases first?_of_not_ascii other with refused | ⟨begun, taken, sound⟩
    · simpa [advance, step?, refused] using beyond
    · simpa [advance, step?, taken] using sound
  | some state =>
    rcases @next?_of_not_ascii octet _ (sound state rfl) with
      refused | ⟨c, taken, high⟩ | ⟨begun, taken, sound⟩
    · rcases first?_of_not_ascii other with again | ⟨begun, taken, sound⟩
      · simpa [advance, step?, refused, again] using beyond
      · simpa [advance, step?, refused, taken] using ⟨beyond, sound⟩
    · simpa [advance, step?, taken] using high
    · simpa [advance, step?, taken] using sound

theorem sound_advance (sound : ∀ begun ∈ state, begun.Sound) (octet : UInt8) :
    ∀ begun ∈ (advance state octet).2, begun.Sound := by
  by_cases ascii : octet.toNat < 0x80
  · simp [advance_of_ascii sound ascii]
  · exact (advance_of_not_ascii sound (Nat.not_lt.mp ascii)).2

/-- The characters that are done come in front of what is still to be decoded. -/
theorem decodeLossyFrom_eq (done : List Char) (state : Option Begun) (octets : List UInt8) :
    decodeLossyFrom done state octets = done.reverse ++ decodeLossyFrom [] state octets := by
  induction octets generalizing done state with
  | nil => cases state <;> simp [decodeLossyFrom]
  | cons octet rest ih =>
    simp only [decodeLossyFrom]
    rw [ih, ih ((advance state octet).1.reverse ++ [])]
    simp

theorem decodeLossyFrom_nil (state : Option Begun) :
    decodeLossyFrom [] state [] = unfinished state := by
  cases state <;> rfl

theorem decodeLossyFrom_cons (state : Option Begun) (octet : UInt8) (rest : List UInt8) :
    decodeLossyFrom [] state (octet :: rest) =
      (advance state octet).1 ++ decodeLossyFrom [] (advance state octet).2 rest := by
  simp only [decodeLossyFrom]
  rw [decodeLossyFrom_eq]
  simp

/-- An octet completes a character or leaves one begun. -/
theorem advance_ne (state : Option Begun) (octet : UInt8) : advance state octet ≠ ([], none) := by
  unfold advance
  split
  · simp
  · simp
  · split
    · simp
    · split <;> simp

theorem eq_nil_of_decodeLossyFrom {octets : List UInt8}
    (nothing : decodeLossyFrom [] state octets = []) : state = none ∧ octets = [] := by
  induction octets generalizing state with
  | nil => cases state <;> simp [decodeLossyFrom] at nothing ⊢
  | cons octet rest ih =>
    rw [decodeLossyFrom_cons, List.append_eq_nil_iff] at nothing
    have idle : advance state octet = ([], none) := Prod.ext nothing.1 (ih nothing.2).1
    exact absurd idle (advance_ne state octet)

/-- An ASCII octet splits the decoding: the octets on either side do not touch. -/
theorem decodeLossyFrom_append_ascii (sound : ∀ begun ∈ state, begun.Sound)
    (ascii : octet.toNat < 0x80) (front rest : List UInt8) :
    decodeLossyFrom [] state (front ++ octet :: rest) =
      decodeLossyFrom [] state front ++ Char.ofNat octet.toNat :: decodeLossy rest := by
  induction front generalizing state with
  | nil =>
    rw [List.nil_append, decodeLossyFrom_cons, advance_of_ascii sound ascii, decodeLossyFrom_nil,
      List.append_assoc]
    rfl
  | cons first front ih =>
    rw [List.cons_append, decodeLossyFrom_cons, decodeLossyFrom_cons,
      ih (sound_advance sound first), List.append_assoc]

/-- An octet of ASCII cuts what is decoded in two. -/
theorem decodeLossy_append_ascii (ascii : octet.toNat < 0x80) (front rest : List UInt8) :
    decodeLossy (front ++ octet :: rest) =
      decodeLossy front ++ Char.ofNat octet.toNat :: decodeLossy rest :=
  decodeLossyFrom_append_ascii (by simp) ascii front rest

/-- The characters of ASCII are the octets of ASCII. -/
theorem filter_decodeLossyFrom (sound : ∀ begun ∈ state, begun.Sound) (octets : List UInt8) :
    (decodeLossyFrom [] state octets).filter (fun c => c.toNat < 0x80) =
      (octets.filter fun octet => octet.toNat < 0x80).map fun octet => Char.ofNat octet.toNat := by
  have none : ∀ state, (unfinished state).filter (fun c => c.toNat < 0x80) = [] := by
    rintro (_ | _) <;> rfl
  induction octets generalizing state with
  | nil => rw [decodeLossyFrom_nil, none]; rfl
  | cons octet rest ih =>
    rw [decodeLossyFrom_cons, List.filter_append, ih (sound_advance sound octet)]
    by_cases ascii : octet.toNat < 0x80
    · have kept : (Char.ofNat octet.toNat).toNat = octet.toNat :=
        toNat_ofNat (.inl (Nat.lt_trans ascii (by decide)))
      rw [advance_of_ascii sound ascii, List.filter_append, none, List.filter_cons_of_pos
        (by simpa [kept] using ascii), List.filter_cons_of_pos (by simpa using ascii)]
      rfl
    · have beyond := (advance_of_not_ascii sound (Nat.not_lt.mp ascii)).1
      have dropped : (advance state octet).1.filter (fun c => c.toNat < 0x80) = [] := by
        apply List.filter_eq_nil_iff.mpr
        intro c member
        simpa using beyond c member
      rw [dropped, List.filter_cons_of_neg (by simpa using ascii), List.nil_append]

end Decoding

section Encoding

variable {v : Nat}

/-- The first of two octets that encode a value. -/
theorem step?_two (low : 0x80 ≤ v) (high : v ≤ 0x7FF) :
    step? none (UInt8.ofNat (v / 64 % 32 + 192)) = some (.begins ⟨v / 64, 1, 0x80, 0xBF⟩) := by
  have octet : (UInt8.ofNat (v / 64 % 32 + 192)).toNat = v / 64 + 192 := by
    rw [UInt8.toNat_ofNat']
    omega
  simp only [step?, first?, octet]
  rw [if_neg (by omega), if_pos (by omega), Nat.add_sub_cancel]

/-- The first of three octets that encode a value allows the second one. -/
theorem step?_three (low : 0x800 ≤ v) (high : v ≤ 0xFFFF) (valid : v.isValidChar) :
    ∃ least greatest,
      step? none (UInt8.ofNat (v / 4096 % 16 + 224)) =
        some (.begins ⟨v / 4096, 2, least, greatest⟩) ∧
      least ≤ v / 64 % 64 + 128 ∧ v / 64 % 64 + 128 ≤ greatest := by
  have octet : (UInt8.ofNat (v / 4096 % 16 + 224)).toNat = v / 4096 + 224 := by
    rw [UInt8.toNat_ofNat']
    omega
  unfold Nat.isValidChar at valid
  simp only [step?, first?, octet]
  rw [if_neg (by omega), if_neg (by omega)]
  by_cases lowest : v / 4096 = 0
  · exact ⟨0xA0, 0xBF, by simp [lowest], by omega, by omega⟩
  by_cases surrogates : v / 4096 = 13
  · exact ⟨0x80, 0x9F, by simp [surrogates], by omega, by omega⟩
  · refine ⟨0x80, 0xBF, ?_, by omega, by omega⟩
    rw [if_neg (by omega), if_neg (by omega), if_pos (by omega), Nat.add_sub_cancel]

/-- The first of four octets that encode a value allows the second one. -/
theorem step?_four (low : 0x10000 ≤ v) (valid : v.isValidChar) :
    ∃ least greatest,
      step? none (UInt8.ofNat (v / 262144 % 8 + 240)) =
        some (.begins ⟨v / 262144, 3, least, greatest⟩) ∧
      least ≤ v / 4096 % 64 + 128 ∧ v / 4096 % 64 + 128 ≤ greatest := by
  unfold Nat.isValidChar at valid
  have octet : (UInt8.ofNat (v / 262144 % 8 + 240)).toNat = v / 262144 + 240 := by
    rw [UInt8.toNat_ofNat']
    omega
  simp only [step?, first?, octet]
  rw [if_neg (by omega), if_neg (by omega), if_neg (by omega), if_neg (by omega), if_neg (by omega)]
  by_cases lowest : v / 262144 = 0
  · exact ⟨0x90, 0xBF, by simp [lowest], by omega, by omega⟩
  by_cases highest : v / 262144 = 4
  · exact ⟨0x80, 0x8F, by simp [highest], by omega, by omega⟩
  · refine ⟨0x80, 0xBF, ?_, by omega, by omega⟩
    rw [if_neg (by omega), if_pos (by omega), Nat.add_sub_cancel]

theorem toNat_later (n : Nat) : (UInt8.ofNat (n % 64 + 128)).toNat = n % 64 + 128 := by
  rw [UInt8.toNat_ofNat']
  omega

/-- The last octet carries the last six bits. -/
theorem step?_last (n : Nat) :
    step? (some ⟨n / 64, 1, 0x80, 0xBF⟩) (UInt8.ofNat (n % 64 + 128)) =
      some (.ends (Char.ofNat n)) := by
  simp only [step?, next?, toNat_later]
  rw [if_pos (by omega), if_pos (Nat.le_refl 1), Nat.add_sub_cancel, Nat.div_add_mod']

/-- An octet before the last one carries six bits as well. -/
theorem step?_inner (n owed : Nat) {least greatest : Nat} (low : least ≤ n % 64 + 128)
    (high : n % 64 + 128 ≤ greatest) :
    step? (some ⟨n / 64, owed + 2, least, greatest⟩) (UInt8.ofNat (n % 64 + 128)) =
      some (.begins ⟨n, owed + 1, 0x80, 0xBF⟩) := by
  simp only [step?, next?, toNat_later]
  rw [if_pos ⟨low, high⟩, if_neg (by omega), Nat.add_sub_cancel, Nat.div_add_mod']
  rfl

/-- The octets behind a state complete a character, the last one of them. -/
inductive Completes : Option Begun → List UInt8 → Char → Prop
  | ends {state : Option Begun} {octet : UInt8} {c : Char}
      (taken : step? state octet = some (.ends c)) : Completes state [octet] c
  | begins {state : Option Begun} {octet : UInt8} {begun : Begun} {octets : List UInt8} {c : Char}
      (taken : step? state octet = some (.begins begun)) (rest : Completes (some begun) octets c) :
      Completes state (octet :: octets) c

/-- The octets of a character complete it. -/
theorem completes_encodeChar (c : Char) : Completes none (String.utf8EncodeChar c) c := by
  have valid : c.val.toNat.isValidChar := c.valid
  have value : Char.ofNat c.val.toNat = c := Char.ofNat_toNat c
  rw [String.utf8EncodeChar]
  generalize c.val.toNat = v at valid value
  have byParts : v / 4096 = v / 64 / 64 := by omega
  have allParts : v / 262144 = v / 64 / 64 / 64 := by omega
  have last := step?_last v
  rw [value] at last
  split_ifs with one two three
  · have octet : (UInt8.ofNat v).toNat = v := by
      rw [UInt8.toNat_ofNat']
      omega
    have only := @first?_of_ascii (UInt8.ofNat v) (by omega)
    rw [octet, value] at only
    exact .ends only
  · have first := step?_two (by omega) two
    exact .begins first (.ends last)
  · obtain ⟨least, greatest, first, low, high⟩ := step?_three (by omega) three valid
    have second := step?_inner (v / 64) 0 low high
    rw [byParts] at first ⊢
    exact .begins first (.begins second (.ends last))
  · obtain ⟨least, greatest, first, low, high⟩ := step?_four (by omega) valid
    rw [allParts] at first ⊢
    rw [byParts] at low high ⊢
    have second := step?_inner (v / 64 / 64) 1 low high
    have third := step?_inner (v / 64) 0 (by omega : 0x80 ≤ v / 64 % 64 + 128)
      (by omega : v / 64 % 64 + 128 ≤ 0xBF)
    exact .begins first (.begins second (.begins third (.ends last)))

theorem Completes.decodeLossyFrom {state : Option Begun} {octets : List UInt8} {c : Char}
    (completes : Completes state octets c) (rest : List UInt8) :
    decodeLossyFrom [] state (octets ++ rest) = c :: decodeLossy rest := by
  induction completes with
  | ends taken =>
    rw [List.singleton_append, decodeLossyFrom_cons]
    simp [advance, taken, decodeLossy]
  | begins taken _ ih => simpa [Utf8.decodeLossyFrom, advance, taken] using ih

theorem Completes.decodeFrom? {state : Option Begun} {octets : List UInt8} {c : Char}
    (completes : Completes state octets c) (done : List Char) (rest : List UInt8) :
    decodeFrom? done state (octets ++ rest) = decodeFrom? (c :: done) none rest := by
  induction completes with
  | ends taken => simp [Utf8.decodeFrom?, taken]
  | begins taken _ ih => simpa [Utf8.decodeFrom?, taken] using ih

/-- Decoding undoes encoding, whatever follows. -/
theorem decodeLossy_encode_append (text : List Char) (rest : List UInt8) :
    decodeLossy (encode text ++ rest) = text ++ decodeLossy rest := by
  induction text with
  | nil => rfl
  | cons c text ih =>
    have split : encode (c :: text) = String.utf8EncodeChar c ++ encode text := rfl
    have first := (completes_encodeChar c).decodeLossyFrom (encode text ++ rest)
    rw [split, List.append_assoc, decodeLossy, first, ih]
    rfl

/-- Encoded text is decoded without loss. -/
theorem decodeLossy_encode (text : List Char) : decodeLossy (encode text) = text := by
  have undone := decodeLossy_encode_append text []
  rw [List.append_nil] at undone
  rw [undone]
  exact List.append_nil text

theorem decodeFrom?_encode (done text : List Char) :
    decodeFrom? done none (encode text) = some (done.reverse ++ text) := by
  induction text generalizing done with
  | nil => simp [encode, decodeFrom?]
  | cons c text ih =>
    have split : encode (c :: text) = String.utf8EncodeChar c ++ encode text := rfl
    rw [split, (completes_encodeChar c).decodeFrom?, ih]
    simp

/-- What is encoded is UTF-8. -/
theorem decode?_encode (text : List Char) : decode? (encode text) = some text :=
  decodeFrom?_encode [] text

end Encoding

end LineLint.Text.Utf8
