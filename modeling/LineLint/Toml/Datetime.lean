/-! # Dates and times

A TOML datetime has a date, a time and an offset from UTC, or only some of the three.
-/

namespace LineLint.Toml

structure Date where
  year : Nat
  month : Nat
  day : Nat
deriving DecidableEq, Repr

structure Time where
  hour : Nat
  minute : Nat
  second : Nat
  nanosecond : Nat
deriving DecidableEq, Repr

/-- An offset from UTC. -/
inductive Offset where
  | utc
  | minutes (count : Int)
deriving DecidableEq, Repr

/-- A date, a time and an offset, as far as they are given. -/
structure Datetime where
  date : Option Date
  time : Option Time
  offset : Option Offset
deriving DecidableEq, Repr

/-- How large the fields of a time and of an offset may be. -/
structure Datetime.Limits where
  hour : Nat
  offsetHour : Nat
  offsetMinute : Nat

/-- The limits for a datetime in a document. -/
def Datetime.Limits.document : Limits := ⟨23, 23, 59⟩

/-- The limits for a datetime that is given as a string. -/
def Datetime.Limits.quoted : Limits := ⟨24, 99, 99⟩

/-- Whether a year has a 29th of February. -/
def isLeapYear (year : Nat) : Bool := year % 4 == 0 && (year % 100 != 0 || year % 400 == 0)

def daysInMonth (year month : Nat) : Nat :=
  if month = 2 then (if isLeapYear year then 29 else 28)
  else if month = 4 ∨ month = 6 ∨ month = 9 ∨ month = 11 then 30
  else 31

/-- A number in decimal with at least `width` digits. -/
def padded (width n : Nat) : String :=
  let digits := Nat.toDigits 10 n
  String.ofList (List.replicate (width - digits.length) '0' ++ digits)

def digitsValue (digits : List Char) : Nat :=
  digits.foldl (fun n c => n * 10 + (c.toNat - '0'.toNat)) 0

namespace Datetime

def dateText (date : Date) : String :=
  padded 4 date.year ++ "-" ++ padded 2 date.month ++ "-" ++ padded 2 date.day

/-- The text of a time. The fraction has no zeros at its end, and is left out if it is zero. -/
def timeText (time : Time) : String :=
  let fraction :=
    if time.nanosecond = 0 then ""
    else
      let digits := (padded 9 time.nanosecond).toList.reverse.dropWhile (· == '0')
      String.ofList ('.' :: digits.reverse)
  padded 2 time.hour ++ ":" ++ padded 2 time.minute ++ ":" ++ padded 2 time.second ++ fraction

def offsetText : Offset → String
  | .utc => "Z"
  | .minutes count =>
    let size := count.natAbs
    (if count < 0 then "-" else "+") ++ padded 2 (size / 60) ++ ":" ++ padded 2 (size % 60)

def text (datetime : Datetime) : String :=
  let date := (datetime.date.map dateText).getD ""
  let gap := if datetime.date.isSome && datetime.time.isSome then "T" else ""
  let time := (datetime.time.map timeText).getD ""
  date ++ gap ++ time ++ (datetime.offset.map offsetText).getD ""

def digits? (count : Nat) (text : List Char) : Option (Nat × List Char) :=
  let digits := text.take count
  if digits.length = count ∧ digits.all Char.isDigit then
    some (digitsValue digits, text.drop count)
  else none

def char? (c : Char) : List Char → Option (List Char)
  | [] => none
  | first :: rest => if first = c then some rest else none

def date? (text : List Char) : Option (Date × List Char) := do
  let (year, text) ← digits? 4 text
  let text ← char? '-' text
  let (month, text) ← digits? 2 text
  let text ← char? '-' text
  let (day, text) ← digits? 2 text
  if 1 ≤ month ∧ month ≤ 12 ∧ 1 ≤ day ∧ day ≤ daysInMonth year month then
    some (⟨year, month, day⟩, text)
  else none

/-- Reads the fraction of a second, if there is one. Digits after the ninth are dropped. -/
def fraction? : List Char → Option (Nat × List Char)
  | '.' :: rest =>
    let digits := rest.takeWhile Char.isDigit
    if digits.isEmpty then none
    else
      let kept := digits.take 9
      some (digitsValue kept * Nat.pow 10 (9 - kept.length), rest.dropWhile Char.isDigit)
  | text => some (0, text)

def time? (limits : Limits) (text : List Char) : Option (Time × List Char) := do
  let (hour, text) ← digits? 2 text
  let text ← char? ':' text
  let (minute, text) ← digits? 2 text
  let text ← char? ':' text
  let (second, text) ← digits? 2 text
  let (nanosecond, text) ← fraction? text
  if hour ≤ limits.hour ∧ minute ≤ 59 ∧ second ≤ 60 then
    some (⟨hour, minute, second, nanosecond⟩, text)
  else none

/-- Reads the size of an offset, in minutes. -/
def offsetSize? (limits : Limits) (text : List Char) : Option (Nat × List Char) := do
  let (hours, text) ← digits? 2 text
  let text ← char? ':' text
  let (minutes, text) ← digits? 2 text
  let size := hours * 60 + minutes
  if hours ≤ limits.offsetHour ∧ minutes ≤ limits.offsetMinute ∧ size ≤ 1440 then some (size, text)
  else none

def offset? (limits : Limits) : List Char → Option (Offset × List Char)
  | 'Z' :: rest | 'z' :: rest => some (.utc, rest)
  | '+' :: rest => (offsetSize? limits rest).map fun (size, rest) => (.minutes size, rest)
  | '-' :: rest => (offsetSize? limits rest).map fun (size, rest) => (.minutes (-size), rest)
  | _ => none

/-- Reads a time with an offset after it, if there is one. -/
def timeWithOffset? (limits : Limits) (text : List Char) :
    Option ((Time × Option Offset) × List Char) := do
  let (time, text) ← time? limits text
  match offset? limits text with
  | some (offset, rest) => some ((time, some offset), rest)
  | none => some ((time, none), text)

/-- Reads a datetime in front of a text: a date, a date with a time, or a time alone. -/
def read? (limits : Limits) (text : List Char) : Option (Datetime × List Char) :=
  match date? text with
  | some (date, rest) =>
    let dateAlone : Datetime × List Char := (⟨some date, none, none⟩, rest)
    match rest with
    | c :: after =>
      if c = 'T' ∨ c = 't' ∨ c = ' ' then
        match timeWithOffset? limits after with
        | some ((time, offset), rest) => some (⟨some date, some time, offset⟩, rest)
        | none => some dateAlone
      else some dateAlone
    | [] => some dateAlone
  | none => (time? limits text).map fun (time, rest) => (⟨none, some time, none⟩, rest)

def ofText? (text : String) : Option Datetime :=
  match read? .quoted text.toList with
  | some (datetime, []) => some datetime
  | _ => none

end Datetime

end LineLint.Toml
