/-! # Binary floating-point numbers of 64 bits

A number is held as its bits. Reading a decimal rounds it to the nearest number, ties going to the
even one. Writing a number takes the fewest decimal digits from which the number is read back, and
of the decimals with so few digits the nearest.
-/

namespace LineLint

/-- A floating-point number, as its 64 bits. -/
structure Binary64 where
  bits : UInt64
deriving DecidableEq, Repr

namespace Binary64

/-- The quotient of two numbers, rounded to the nearest integer, ties to even. -/
def roundDiv (num den : Nat) : Nat :=
  let quotient := num / den
  let twice := 2 * (num % den)
  if twice < den then quotient
  else if den < twice then quotient + 1
  else quotient + quotient % 2

/-- A quotient divided by a power of two, as a quotient. -/
def scale (num den : Nat) (power : Int) : Nat × Nat :=
  match power with
  | .ofNat p => (num, den <<< p)
  | .negSucc p => (num <<< (p + 1), den)

/-- The lowest power of two that a number is a multiple of. -/
def lowestPower : Int := -1074

/-- The bits of the positive quotient `num / den`, without a sign. -/
def magnitudeBits (num den : Nat) : Nat :=
  let guess : Int := Int.ofNat num.log2 - Int.ofNat den.log2 - 52
  let (n, d) := scale num den guess
  let power := max (if n / d < 1 <<< 52 then guess - 1 else guess) lowestPower
  let (n, d) := scale num den power
  let significand := roundDiv n d
  let (significand, power) :=
    if significand = 1 <<< 53 then (1 <<< 52, power + 1) else (significand, power)
  if significand < 1 <<< 52 then significand
  else
    let exponent := (power + 1075).toNat
    if 2047 ≤ exponent then 2047 <<< 52 else (exponent <<< 52) + (significand - (1 <<< 52))

def ofMagnitude (negative : Bool) (magnitude : Nat) : Binary64 :=
  ⟨UInt64.ofNat (magnitude + if negative then 1 <<< 63 else 0)⟩

def infinity (negative : Bool) : Binary64 := ofMagnitude negative (2047 <<< 52)

def nan (negative : Bool) : Binary64 := ofMagnitude negative ((2047 <<< 52) + (1 <<< 51))

def digitCount (n : Nat) : Nat := (Nat.toDigits 10 n).length

/-- The number nearest to `digits * 10 ^ exponent`, with a sign. -/
def ofDecimal (negative : Bool) (digits : Nat) (exponent : Int) : Binary64 :=
  if digits = 0 then ofMagnitude negative 0
  else
    let size := Int.ofNat (digitCount digits) + exponent
    if 310 < size then infinity negative
    else if size < -330 then ofMagnitude negative 0
    else
      match exponent with
      | .ofNat e => ofMagnitude negative (magnitudeBits (digits * Nat.pow 10 e) 1)
      | .negSucc e => ofMagnitude negative (magnitudeBits digits (Nat.pow 10 (e + 1)))

def isNegative (x : Binary64) : Bool := 1 <<< 63 ≤ x.bits.toNat

def exponentField (x : Binary64) : Nat := (x.bits.toNat >>> 52) % (1 <<< 11)

def fractionField (x : Binary64) : Nat := x.bits.toNat % (1 <<< 52)

/-- What kind of number it is, with the magnitude of a finite one as `significand * 2 ^ power`. -/
inductive Class where
  | nan
  | infinite
  | zero
  | finite (significand : Nat) (power : Int)
deriving DecidableEq, Repr

def classify (x : Binary64) : Class :=
  if x.exponentField = 2047 then (if x.fractionField = 0 then .infinite else .nan)
  else if x.exponentField = 0 then
    (if x.fractionField = 0 then .zero else .finite x.fractionField lowestPower)
  else .finite (x.fractionField + (1 <<< 52)) (Int.ofNat x.exponentField - 1075)

/-- A positive decimal, `digits * 10 ^ exponent`. -/
structure Decimal where
  digits : Nat
  exponent : Int
deriving DecidableEq, Repr

/-- The quotient divided by a power of ten, as a quotient. -/
def scaleTen (num den : Nat) (power : Int) : Nat × Nat :=
  match power with
  | .ofNat p => (num, den * Nat.pow 10 p)
  | .negSucc p => (num * Nat.pow 10 (p + 1), den)

/-- The greatest power of ten that does not exceed the positive quotient `num / den`. -/
def decimalOrder (num den : Nat) : Int :=
  let guess : Int := Int.ofNat (digitCount num) - Int.ofNat (digitCount den)
  let (n, d) := scaleTen num den guess
  if d ≤ n then guess else guess - 1

/-- The decimals that are read as a finite number, as an interval of quotients over `den`. -/
structure Interval where
  low : Nat
  value : Nat
  high : Nat
  den : Nat
  closed : Bool

/-- The interval of a finite number. Below a power of two the numbers lie twice as close. -/
def Interval.of (significand : Nat) (power : Int) : Interval :=
  let below := if significand = 1 <<< 52 ∧ lowestPower < power then 1 else 2
  let (num, den) := scale 1 1 (-(power - 2))
  let unit := num
  ⟨(4 * significand - below) * unit, 4 * significand * unit, (4 * significand + 2) * unit, den,
    significand % 2 = 0⟩

def Interval.contains (i : Interval) (x : Decimal) : Bool :=
  let (num, den) := scaleTen x.digits 1 (-x.exponent)
  let value := num * i.den
  if i.closed then i.low * den ≤ value && value ≤ i.high * den
  else i.low * den < value && value < i.high * den

/-- The decimal on the grid of multiples of `10 ^ exponent` that is read as the number and lies
nearest to it, the greater one of two. -/
def Interval.onGrid? (i : Interval) (exponent : Int) : Option Decimal :=
  let (num, den) := scaleTen i.value i.den exponent
  let below : Decimal := ⟨num / den, exponent⟩
  let above : Decimal := ⟨num / den + 1, exponent⟩
  let aboveFirst := den ≤ 2 * (num % den)
  let (first, second) := if aboveFirst then (above, below) else (below, above)
  if i.contains first then some first
  else if i.contains second then some second
  else none

/-- The first decimal found on finer and finer grids. -/
def Interval.refine (i : Interval) (exponent : Int) : Nat → Decimal
  | 0 => ⟨i.value, 0⟩
  | steps + 1 => (i.onGrid? exponent).getD (i.refine (exponent - 1) steps)

/-- The shortest decimal that is read as a finite number. -/
def shortest (significand : Nat) (power : Int) : Decimal :=
  let i := Interval.of significand power
  i.refine (decimalOrder i.value i.den) 17

/-- A decimal in positional notation, without an exponent. -/
def Decimal.text (x : Decimal) : String :=
  match x.exponent with
  | .ofNat e => toString (x.digits * Nat.pow 10 e)
  | .negSucc e =>
    let places := e + 1
    let digits := Nat.toDigits 10 x.digits
    let padded := List.replicate (places + 1 - digits.length) '0' ++ digits
    let whole := padded.take (padded.length - places)
    let fraction := padded.drop (padded.length - places)
    String.ofList (whole ++ '.' :: fraction)

end Binary64

end LineLint
