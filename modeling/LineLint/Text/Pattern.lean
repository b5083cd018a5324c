import LineLint.Span
import LineLint.Text.WordChar

/-! # Patterns

A pattern describes stretches of a text. Where it fits several stretches from one place, it prefers
one of them: a repetition takes as many characters as it can and gives them back one by one. A
search finds the leftmost place from which a pattern fits, and a scan seeks every match behind the
one before it, so that no character belongs to two matches.
-/

namespace LineLint.Text

/-- A place in a text: the characters before it, back to front, and the characters behind it. -/
structure Cursor where
  before : List Char
  rest : List Char
deriving DecidableEq, Repr

namespace Cursor

def start (text : List Char) : Cursor := ⟨[], text⟩

def offset (cursor : Cursor) : Nat := byteLength cursor.before

def stretch (cursor later : Cursor) : Span :=
  ⟨cursor.offset, cursor.rest.take (cursor.rest.length - later.rest.length)⟩

/-- Whether a word character stands on one side of a place and none on the other. -/
def isWordEdge (cursor : Cursor) : Bool :=
  cursor.before.head?.any isWordChar != cursor.rest.head?.any isWordChar

/-- The places that characters of a class lead to, the farthest first, in front of `nearer`. -/
def runs (accepts : Char → Bool) (nearer : List Cursor) (before : List Char) :
    List Char → List Cursor
  | [] => ⟨before, []⟩ :: nearer
  | c :: rest =>
    if accepts c then runs accepts (⟨before, c :: rest⟩ :: nearer) (c :: before) rest
    else ⟨before, c :: rest⟩ :: nearer

/-- Reading `chars` leads from one place to another. -/
structure Leads (cursor : Cursor) (chars : List Char) (later : Cursor) : Prop where
  rest_eq : cursor.rest = chars ++ later.rest
  before_eq : later.before = chars.reverse ++ cursor.before

namespace Leads

variable {a b c : Cursor} {first second : List Char}

theorem refl (cursor : Cursor) : cursor.Leads [] cursor := ⟨rfl, rfl⟩

theorem trans (left : a.Leads first b) (right : b.Leads second c) :
    a.Leads (first ++ second) c where
  rest_eq := by rw [left.rest_eq, right.rest_eq, List.append_assoc]
  before_eq := by
    rw [right.before_eq, left.before_eq, List.reverse_append, List.append_assoc]

theorem stretch_eq (leads : a.Leads first b) : a.stretch b = ⟨a.offset, first⟩ := by
  simp [stretch, leads.rest_eq]

theorem length_rest (leads : a.Leads first b) : a.rest.length = first.length + b.rest.length := by
  rw [leads.rest_eq, List.length_append]

end Leads

/-- A run reads characters of its class alone. -/
theorem leads_of_mem_runs {accepts : Char → Bool} {nearer : List Cursor} {before rest : List Char}
    {later : Cursor} (member : later ∈ runs accepts nearer before rest) :
    later ∈ nearer ∨
      ∃ chars, Leads ⟨before, rest⟩ chars later ∧ ∀ c ∈ chars, accepts c = true := by
  induction rest generalizing nearer before with
  | nil =>
    rcases List.mem_cons.mp member with rfl | old
    · exact .inr ⟨[], .refl _, by simp⟩
    · exact .inl old
  | cons c rest ih =>
    have here : Leads ⟨before, c :: rest⟩ [] ⟨before, c :: rest⟩ := .refl _
    have next : Leads ⟨before, c :: rest⟩ [c] ⟨c :: before, rest⟩ := ⟨rfl, rfl⟩
    simp only [runs] at member
    split at member
    · rename_i accepted
      rcases ih member with old | ⟨chars, leads, all⟩
      · rcases List.mem_cons.mp old with rfl | old
        · exact .inr ⟨[], here, by simp⟩
        · exact .inl old
      · refine .inr ⟨[c] ++ chars, next.trans leads, ?_⟩
        simpa using ⟨accepted, all⟩
    · rcases List.mem_cons.mp member with rfl | old
      · exact .inr ⟨[], here, by simp⟩
      · exact .inl old

end Cursor

/-- How far a match has come: the place that it has reached, and what its group has taken. -/
structure Progress where
  cursor : Cursor
  group : Option Span
deriving DecidableEq, Repr

inductive Pattern where
  /-- One character of a class. -/
  | one (accepts : Char → Bool)
  /-- Any number of characters of a class, the more the better. -/
  | many (accepts : Char → Bool)
  /-- One pattern after the other. -/
  | seq (first second : Pattern)
  /-- The part of a pattern whose stretch is asked for. -/
  | group (inner : Pattern)
  /-- No character, but only at a place of which something is true. -/
  | assertion (holds : Cursor → Bool)

structure Match where
  start : Cursor
  stop : Cursor
  group : Option Span
deriving DecidableEq, Repr

def Match.whole (found : Match) : Span := found.start.stretch found.stop

namespace Pattern

def textStart : Pattern := assertion fun cursor => cursor.before.isEmpty

def textEnd : Pattern := assertion fun cursor => cursor.rest.isEmpty

def wordEdge : Pattern := assertion Cursor.isWordEdge

/-- The whole of a text: one character of a class, and after it any number of another. -/
def wholeName (initial inner : Char → Bool) : Pattern :=
  seq textStart (seq (one initial) (seq (many inner) textEnd))

/-- Where matches may have come behind a pattern, in the order of preference. -/
def ends : Pattern → Progress → List Progress
  | one _, ⟨⟨_, []⟩, _⟩ => []
  | one accepts, ⟨⟨before, c :: rest⟩, taken⟩ =>
    if accepts c then [⟨⟨c :: before, rest⟩, taken⟩] else []
  | many accepts, ⟨⟨before, rest⟩, taken⟩ =>
    (Cursor.runs accepts [] before rest).map fun cursor => ⟨cursor, taken⟩
  | seq first second, progress => (first.ends progress).flatMap second.ends
  | group inner, progress =>
    (inner.ends progress).map fun reached =>
      { reached with group := some (progress.cursor.stretch reached.cursor) }
  | assertion holds, progress => if holds progress.cursor then [progress] else []

/-- Whether every match takes a character at least. -/
def consumes : Pattern → Bool
  | one _ => true
  | many _ => false
  | seq first second => first.consumes || second.consumes
  | group inner => inner.consumes
  | assertion _ => false

/-- The match from a place that a pattern prefers. -/
def matchAt? (pattern : Pattern) (cursor : Cursor) : Option Match :=
  (pattern.ends ⟨cursor, none⟩).head?.map fun reached => ⟨cursor, reached.cursor, reached.group⟩

/-- The leftmost match in the text behind `before`. -/
def searchFrom? (pattern : Pattern) (before : List Char) : List Char → Option Match
  | [] => pattern.matchAt? ⟨before, []⟩
  | c :: rest =>
    (pattern.matchAt? ⟨before, c :: rest⟩).or (pattern.searchFrom? (c :: before) rest)

/-- The leftmost match at or behind a place. -/
def search? (pattern : Pattern) (cursor : Cursor) : Option Match :=
  pattern.searchFrom? cursor.before cursor.rest

/-- Whether a pattern fits anywhere in a text. -/
def isMatch (pattern : Pattern) (text : List Char) : Bool :=
  (pattern.search? (.start text)).isSome

/-- A match reads the text on from where it starts. -/
theorem leads_of_mem_ends {pattern : Pattern} {progress reached : Progress}
    (member : reached ∈ pattern.ends progress) :
    ∃ chars, progress.cursor.Leads chars reached.cursor ∧
      (pattern.consumes = true → chars ≠ []) := by
  induction pattern generalizing progress reached with
  | one accepts =>
    obtain ⟨⟨before, rest⟩, taken⟩ := progress
    cases rest with
    | nil => simp [ends] at member
    | cons c rest =>
      simp only [ends] at member
      split at member
      · rw [List.mem_singleton.mp member]
        exact ⟨[c], ⟨rfl, rfl⟩, by simp⟩
      · simp at member
  | many accepts =>
    obtain ⟨⟨before, rest⟩, taken⟩ := progress
    obtain ⟨cursor, ran, rfl⟩ := List.mem_map.mp member
    obtain old | ⟨chars, leads, _⟩ := Cursor.leads_of_mem_runs ran
    · simp at old
    · exact ⟨chars, leads, by simp [consumes]⟩
  | seq first second ihFirst ihSecond =>
    obtain ⟨middle, left, right⟩ := List.mem_flatMap.mp member
    obtain ⟨front, toMiddle, frontTakes⟩ := ihFirst left
    obtain ⟨back, toEnd, backTakes⟩ := ihSecond right
    refine ⟨front ++ back, toMiddle.trans toEnd, ?_⟩
    simp only [consumes, Bool.or_eq_true, ne_eq, List.append_eq_nil_iff, not_and]
    rintro (takes | takes) noFront
    · exact absurd noFront (frontTakes takes)
    · exact backTakes takes
  | group inner ih =>
    obtain ⟨inside, within, rfl⟩ := List.mem_map.mp member
    obtain ⟨chars, leads, takesSome⟩ := ih within
    exact ⟨chars, leads, takesSome⟩
  | assertion holds =>
    simp only [ends] at member
    split at member
    · rw [List.mem_singleton.mp member]
      exact ⟨[], .refl _, by simp [consumes]⟩
    · simp at member

theorem mem_ends_of_matchAt? {pattern : Pattern} {cursor : Cursor} {found : Match}
    (fits : pattern.matchAt? cursor = some found) :
    found.start = cursor ∧ ⟨found.stop, found.group⟩ ∈ pattern.ends ⟨cursor, none⟩ := by
  obtain ⟨reached, first, rfl⟩ := Option.map_eq_some_iff.mp fits
  exact ⟨rfl, List.mem_of_mem_head? first⟩

/-- A search skips characters, and what it finds is the match from the place behind them. -/
theorem searchFrom?_eq_some {pattern : Pattern} {before rest : List Char} {found : Match}
    (sought : pattern.searchFrom? before rest = some found) :
    ∃ skipped, Cursor.Leads ⟨before, rest⟩ skipped found.start ∧
      pattern.matchAt? found.start = some found := by
  induction rest generalizing before with
  | nil =>
    have same := (mem_ends_of_matchAt? sought).1
    exact ⟨[], same ▸ .refl _, same ▸ sought⟩
  | cons c rest ih =>
    rcases Option.or_eq_some_iff.mp sought with fits | ⟨_, later⟩
    · have same := (mem_ends_of_matchAt? fits).1
      exact ⟨[], same ▸ .refl _, same ▸ fits⟩
    · obtain ⟨skipped, leads, fits⟩ := ih later
      have next : Cursor.Leads ⟨before, c :: rest⟩ [c] ⟨c :: before, rest⟩ := ⟨rfl, rfl⟩
      exact ⟨[c] ++ skipped, next.trans leads, fits⟩

theorem length_rest_of_search? {pattern : Pattern} (takes : pattern.consumes = true)
    {cursor : Cursor} {found : Match} (sought : pattern.search? cursor = some found) :
    found.stop.rest.length < cursor.rest.length := by
  obtain ⟨skipped, toStart, fits⟩ := searchFrom?_eq_some sought
  obtain ⟨taken, toStop, some⟩ := leads_of_mem_ends (mem_ends_of_matchAt? fits).2
  have toStart := toStart.length_rest
  have toStop := toStop.length_rest
  have positive := List.length_pos_iff.mpr (some takes)
  simp only at toStart toStop
  omega

/-- All matches at or behind a place, each one sought behind the one before. -/
def scan (pattern : Pattern) (takes : pattern.consumes = true) (cursor : Cursor) : List Match :=
  match _ : pattern.search? cursor with
  | none => []
  | some found => found :: pattern.scan takes found.stop
termination_by cursor.rest.length
decreasing_by exact length_rest_of_search? takes ‹_›

end Pattern

end LineLint.Text
