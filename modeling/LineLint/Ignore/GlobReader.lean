import LineLint.Ignore.Glob

/-! # Reading globs

A glob is read from left to right. The groups that are open are kept with what was read of them,
the innermost first. A bracket that no bracket closes stands for itself, and so do all brackets
behind it.
-/

namespace LineLint.Ignore

inductive GlobError where
  | invalidRange (first last : Char)
  | unopenedGroup
  | unclosedGroup
  | danglingEscape
deriving DecidableEq, Repr

def GlobError.message : GlobError → String
  | invalidRange first last =>
    "invalid range; '" ++ first.toString ++ "' > '" ++ last.toString ++ "'"
  | unopenedGroup =>
    "unopened alternate group; missing '\x7b' (maybe escape '\x7d' with '[\x7d]'?)"
  | unclosedGroup =>
    "unclosed alternate group; missing '\x7d' (maybe escape '\x7b' with '[\x7b]'?)"
  | danglingEscape => "dangling '\\'"

/-- An open group: what stands in front of it in the branch around it, and its finished branches,
both back to front. -/
structure OpenGroup where
  before : List Part
  branches : List Glob
deriving Repr

structure GlobReading where
  /-- The parts of the current branch, back to front. -/
  parts : List Part
  /-- The open groups, the innermost first. -/
  groups : List OpenGroup
  /-- The character that was read last. -/
  last : Option Char
  /-- Whether a bracket was found that no bracket closes. -/
  bracketsAreLiteral : Bool
deriving Repr

def GlobReading.start : GlobReading := ⟨[], [], none, false⟩

/-- Adds a part that was read up to and with the character `c`. -/
def GlobReading.add (reading : GlobReading) (c : Char) (part : Part) : GlobReading :=
  { reading with parts := part :: reading.parts, last := some c }

/-- The ranges of a class, back to front, behind a hyphen that made a range begin. -/
def closeRange (c : Char) : List CharRange → Except GlobError (List CharRange)
  | [] => .ok [⟨c, c⟩]
  | range :: rest =>
    if c < range.first then .error (.invalidRange range.first c)
    else .ok (⟨range.first, c⟩ :: rest)

/-- The ranges of a class behind its first character, up to the closing bracket, and what follows
the bracket. There are none if no bracket closes the class. The ranges `done` are held back to
front, and `inRange` says that a hyphen follows the last of them. -/
def classFrom (done : List CharRange) (inRange : Bool) :
    List Char → Except GlobError (Option (List CharRange × List Char))
  | [] => .ok none
  | c :: rest =>
    if c = ']' then .ok (some ((if inRange then ⟨'-', '-'⟩ :: done else done).reverse, rest))
    else if inRange then do classFrom (← closeRange c done) false rest
    else if c = '-' then classFrom done true rest
    else classFrom (⟨c, c⟩ :: done) false rest

/-- A class behind its opening bracket and its sign, if it is negated. The first character is never
the closing bracket. -/
def classBehindSign : List Char → Except GlobError (Option (List CharRange × List Char))
  | [] => .ok none
  | c :: rest => classFrom [⟨c, c⟩] false rest

/-- A class behind its opening bracket. -/
def class? : List Char → Except GlobError (Option (Part × List Char))
  | [] => .ok none
  | c :: rest =>
    let negated := c == '!' || c == '^'
    do
      let found ← classBehindSign (if negated then rest else c :: rest)
      return found.map fun (ranges, rest) => (.oneOf negated ranges, rest)

theorem length_classFrom {done ranges : List CharRange} {inRange : Bool} {text after : List Char}
    (found : classFrom done inRange text = .ok (some (ranges, after))) :
    after.length ≤ text.length := by
  induction text generalizing done inRange with
  | nil => simp [classFrom] at found
  | cons c rest ih =>
    simp only [classFrom] at found
    split at found
    · simp only [Except.ok.injEq, Option.some.injEq, Prod.mk.injEq] at found
      simp [← found.2]
    · split at found
      · cases closed : closeRange c done with
        | error e => simp [closed, bind, Except.bind] at found
        | ok closed' =>
          simp only [closed, bind, Except.bind] at found
          exact Nat.le_succ_of_le (ih found)
      · split at found <;> exact Nat.le_succ_of_le (ih found)

theorem length_class? {text after : List Char} {part : Part}
    (found : class? text = .ok (some (part, after))) : after.length ≤ text.length := by
  cases text with
  | nil => simp [class?] at found
  | cons c rest =>
    simp only [class?] at found
    generalize behind : (if (c == '!' || c == '^') = true then rest else c :: rest) = inside
      at found
    have bound : inside.length ≤ (c :: rest).length := by
      rw [← behind]
      split <;> simp
    cases inside with
    | nil => simp [classBehindSign, bind, Except.bind, pure, Except.pure] at found
    | cons d tail =>
      simp only [classBehindSign, bind, Except.bind] at found
      split at found
      · simp at found
      · rename_i result eq
        simp only [pure, Except.pure, Except.ok.injEq, Option.map_eq_some_iff, Prod.mk.injEq,
          Prod.exists] at found
        obtain ⟨ranges, after', rfl, -, rfl⟩ := found
        have := length_classFrom eq
        simp only [List.length_cons] at bound ⊢
        omega

/-- Reads a star, given what follows it. A doubled star matches directories where it stands alone
between slashes, at an end, or at an end of a branch; elsewhere it is two stars. -/
def star (reading : GlobReading) : List Char → GlobReading × List Char
  | '*' :: rest =>
    let doubled := (reading.add '*' .run).add '*' .run
    let inGroup := !reading.groups.isEmpty
    if reading.parts.isEmpty then
      match rest with
      | [] => (reading.add '*' .leading, [])
      | c :: tail =>
        if c = '/' then (reading.add '/' .leading, tail) else (doubled, rest)
    else if reading.last ≠ some '/' ∧
        !(inGroup ∧ (reading.last = some ',' ∨ reading.last = some '\x7b')) then (doubled, rest)
    else
      let merged (c : Char) (part : Part) : GlobReading :=
        match reading.parts with
        | .leading :: _ | .trailing :: _ => { reading with last := some c }
        | parts => { reading with parts := part :: parts.tail, last := some c }
      match rest with
      | [] => (merged '*' .trailing, [])
      | c :: tail =>
        if c = '/' then (merged '/' .inner, tail)
        else if inGroup ∧ (c = ',' ∨ c = '\x7d') then (merged '*' .trailing, rest)
        else (doubled, rest)
  | rest => (reading.add '*' .run, rest)

theorem length_star (reading : GlobReading) (text : List Char) :
    (star reading text).2.length ≤ text.length := by
  unfold star
  split
  · rename_i rest
    dsimp only
    split
    · split
      · simp
      · split
        · simp; omega
        · simp
    · split
      · simp
      · split
        · simp
        · split
          · simp; omega
          · split <;> simp
  · simp

def GlobReading.step (reading : GlobReading) (c : Char) (rest : List Char) :
    Except GlobError (GlobReading × List Char) :=
  if c = '?' then .ok (reading.add c .any, rest)
  else if c = '*' then .ok (star reading rest)
  else if c = '[' ∧ reading.bracketsAreLiteral = false then
    match class? rest with
    | .error e => .error e
    | .ok none => .ok ({ reading.add c (.literal c) with bracketsAreLiteral := true }, rest)
    | .ok (some (part, after)) => .ok (reading.add ']' part, after)
  else if c = '\x7b' then
    .ok ({ reading with
      parts := [], groups := ⟨reading.parts, []⟩ :: reading.groups, last := some c }, rest)
  else if c = '\x7d' then
    match reading.groups with
    | [] => .error .unopenedGroup
    | group :: groups =>
      let part := .alternatives (reading.parts.reverse :: group.branches).reverse
      .ok ({ reading with parts := part :: group.before, groups := groups, last := some c }, rest)
  else if c = ',' then
    match reading.groups with
    | [] => .ok (reading.add c (.literal c), rest)
    | group :: groups =>
      let group := { group with branches := reading.parts.reverse :: group.branches }
      .ok ({ reading with parts := [], groups := group :: groups, last := some c }, rest)
  else if c = '\\' then
    match rest with
    | [] => .error .danglingEscape
    | escaped :: rest => .ok (reading.add escaped (.literal escaped), rest)
  else .ok (reading.add c (.literal c), rest)

theorem GlobReading.length_step {reading next : GlobReading} {c : Char} {rest after : List Char}
    (found : reading.step c rest = .ok (next, after)) : after.length ≤ rest.length := by
  unfold GlobReading.step at found
  split at found
  · simp only [Except.ok.injEq, Prod.mk.injEq] at found
    simp [← found.2]
  · split at found
    · simp only [Except.ok.injEq] at found
      have := length_star reading rest
      rw [found] at this
      exact this
    · split at found
      · split at found
        · simp at found
        · simp only [Except.ok.injEq, Prod.mk.injEq] at found
          simp [← found.2]
        · rename_i eq
          simp only [Except.ok.injEq, Prod.mk.injEq] at found
          rw [← found.2]
          exact length_class? eq
      · split at found
        · simp only [Except.ok.injEq, Prod.mk.injEq] at found
          simp [← found.2]
        · split at found
          · split at found
            · simp at found
            · simp only [Except.ok.injEq, Prod.mk.injEq] at found
              simp [← found.2]
          · split at found
            · split at found <;>
              · simp only [Except.ok.injEq, Prod.mk.injEq] at found
                simp [← found.2]
            · split at found
              · split at found
                · simp at found
                · simp only [Except.ok.injEq, Prod.mk.injEq] at found
                  simp [← found.2]
              · simp only [Except.ok.injEq, Prod.mk.injEq] at found
                simp [← found.2]

def GlobReading.finish (reading : GlobReading) (text : List Char) : Except GlobError Glob :=
  match text with
  | [] => if reading.groups.isEmpty then .ok reading.parts.reverse else .error .unclosedGroup
  | c :: rest =>
    match found : reading.step c rest with
    | .error e => .error e
    | .ok (next, after) =>
      have := GlobReading.length_step found
      next.finish after
termination_by text.length

def Glob.ofText (text : List Char) : Except GlobError Glob := GlobReading.start.finish text

end LineLint.Ignore
