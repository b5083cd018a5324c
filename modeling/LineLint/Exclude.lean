/-! # Exclude patterns

A pattern is matched against the whole name of a file. `?` stands for any character, `*` for any
run of characters, a class in brackets for one character, and `**` as a whole component for any
directories; slashes are characters like any other.
-/

namespace LineLint

/-- One part of a class: the characters from the first to the last. -/
structure CharRange where
  first : Char
  last : Char
deriving DecidableEq, Repr

def CharRange.contains (range : CharRange) (c : Char) : Bool := range.first ≤ c && c ≤ range.last

namespace Exclude

inductive Token where
  | literal (c : Char)
  /-- `?` -/
  | anyChar
  /-- `*` -/
  | anySequence
  /-- `**` -/
  | anyDirectories
  /-- `[...]` -/
  | within (ranges : List CharRange)
  /-- `[!...]` -/
  | except (ranges : List CharRange)
deriving DecidableEq, Repr

inductive Fault where
  | wildcards
  | recursiveWildcards
  | range
deriving DecidableEq, Repr

def Fault.message : Fault → String
  | wildcards => "wildcards are either regular \x60*\x60 or recursive \x60**\x60"
  | recursiveWildcards => "recursive wildcards must form a single path component"
  | range => "invalid range pattern"

/-- A fault and the number of characters in front of it. -/
structure PatternError where
  position : Nat
  fault : Fault
deriving DecidableEq, Repr

def PatternError.message (error : PatternError) : String :=
  "Pattern syntax error near position " ++ toString error.position ++ ": " ++ error.fault.message

/-- The ranges of a class: two characters with a hyphen between them, or one character. -/
def ranges : List Char → List CharRange
  | first :: '-' :: last :: rest => ⟨first, last⟩ :: ranges rest
  | c :: rest => ⟨c, c⟩ :: ranges rest
  | [] => []

/-- The inside of a class, which starts with any character and goes on to the next bracket, and
what follows the bracket. -/
def class? : List Char → Option (List Char × List Char)
  | [] => none
  | first :: rest =>
    match rest.dropWhile (· ≠ ']') with
    | [] => none
    | _ :: after => some (first :: rest.takeWhile (· ≠ ']'), after)

/-- Reading a class takes some characters, so that reading a pattern comes to an end. -/
theorem length_class? {text inside after : List Char} (found : class? text = some (inside, after)) :
    after.length < text.length := by
  cases text with
  | nil => simp [class?] at found
  | cons first rest =>
    simp only [class?] at found
    split at found
    · simp at found
    · rename_i eq
      simp only [Option.some.injEq, Prod.mk.injEq] at found
      obtain ⟨-, rfl⟩ := found
      have bound := (List.dropWhile_sublist (fun c => decide (c ≠ ']')) (l := rest)).length_le
      rw [eq] at bound
      simp only [List.length_cons] at bound ⊢
      omega

/-- The tokens of a pattern from a position on, where `atBorder` says that a component starts. -/
def tokensFrom (position : Nat) (atBorder : Bool) (text : List Char) :
    Except PatternError (List Token) :=
  match text with
  | [] => .ok []
  | '*' :: '*' :: '*' :: _ => .error ⟨position + 2, .wildcards⟩
  | '*' :: '*' :: rest =>
    if !atBorder then .error ⟨position - 1, .recursiveWildcards⟩
    else
      match rest with
      | [] => .ok [.anyDirectories]
      | c :: rest =>
        if c = '/' then do return .anyDirectories :: (← tokensFrom (position + 3) true rest)
        else .error ⟨position + 2, .recursiveWildcards⟩
  | '*' :: rest => do return .anySequence :: (← tokensFrom (position + 1) false rest)
  | '?' :: rest => do return .anyChar :: (← tokensFrom (position + 1) false rest)
  | '[' :: '!' :: rest =>
    match found : class? rest with
    | none => .error ⟨position, .range⟩
    | some (inside, after) =>
      have := length_class? found
      do return .except (ranges inside) :: (← tokensFrom (position + inside.length + 3) false after)
  | '[' :: rest =>
    match found : class? rest with
    | none => .error ⟨position, .range⟩
    | some (inside, after) =>
      have := length_class? found
      do return .within (ranges inside) :: (← tokensFrom (position + inside.length + 2) false after)
  | c :: rest => do return .literal c :: (← tokensFrom (position + 1) (c == '/') rest)
termination_by text.length

def ofText (text : List Char) : Except PatternError (List Token) := tokensFrom 0 true text

/-- Whether a token that stands for one character stands for this one. -/
def Token.accepts : Token → Char → Bool
  | literal wanted, c => wanted == c
  | anyChar, _ => true
  | within ranges, c => ranges.any (·.contains c)
  | except ranges, c => !ranges.any (·.contains c)
  | anySequence, _ => false
  | anyDirectories, _ => false

/-- The ends of a list: the list itself, and then all that is left as it is taken from the
front. -/
def ends {α : Type} : List α → List (List α)
  | [] => [[]]
  | x :: rest => (x :: rest) :: ends rest

def behindSlashes : List Char → List (List Char)
  | [] => []
  | c :: rest => if c = '/' then rest :: behindSlashes rest else behindSlashes rest

/-- What may be left behind directories: the whole text, what is behind one of its slashes, or
nothing. -/
def behindDirectories (text : List Char) : List (List Char) := text :: behindSlashes text ++ [[]]

/-- Whether tokens stand for the whole of a text. -/
def isMatch : List Token → List Char → Bool
  | [], text => text.isEmpty
  | .anySequence :: rest, text => (ends text).any (isMatch rest)
  | .anyDirectories :: rest, text => (behindDirectories text).any (isMatch rest)
  | _ :: _, [] => false
  | token :: rest, c :: text => token.accepts c && isMatch rest text

/-- A recursive wildcard may go on behind any slash of the text. -/
theorem mem_behindSlashes_iff {rest text : List Char} :
    rest ∈ behindSlashes text ↔ ∃ front, text = front ++ '/' :: rest := by
  induction text with
  | nil => simp [behindSlashes]
  | cons c tail ih =>
    have split : (∃ front, c :: tail = front ++ '/' :: rest) ↔
        (c = '/' ∧ tail = rest) ∨ ∃ front, tail = front ++ '/' :: rest := by
      constructor
      · rintro ⟨front, eq⟩
        cases front with
        | nil => exact Or.inl (List.cons.inj eq)
        | cons d front => exact Or.inr ⟨front, (List.cons.inj eq).2⟩
      · rintro (⟨rfl, rfl⟩ | ⟨front, rfl⟩)
        · exact ⟨[], rfl⟩
        · exact ⟨c :: front, rfl⟩
    rw [split, behindSlashes]
    by_cases slash : c = '/'
    · simp [slash, ih, eq_comm]
    · simp [slash, ih]

end Exclude

end LineLint
