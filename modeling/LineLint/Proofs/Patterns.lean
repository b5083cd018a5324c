import LineLint.Text.Pattern

/-! # What patterns match

The matches of a pattern are described part by part, without regard to preference. A scan gives the
matches from every place of the text if the pattern is apart, which is to say that none of its
matches begins inside another one.
-/

namespace LineLint.Text

namespace Cursor

variable {cursor later : Cursor} {chars : List Char}

theorem leads_nil_iff : cursor.Leads [] later ↔ later = cursor := by
  constructor
  · intro leads
    obtain ⟨before, rest⟩ := cursor
    obtain ⟨laterBefore, laterRest⟩ := later
    simpa using ⟨leads.before_eq, leads.rest_eq.symm⟩
  · rintro rfl
    exact .refl _

theorem leads_cons_iff {before rest : List Char} {c : Char} :
    Leads ⟨before, rest⟩ (c :: chars) later ↔
      ∃ tail, rest = c :: tail ∧ Leads ⟨c :: before, tail⟩ chars later := by
  constructor
  · intro leads
    refine ⟨chars ++ later.rest, leads.rest_eq, rfl, ?_⟩
    simpa using leads.before_eq
  · rintro ⟨tail, rfl, leads⟩
    have next : Leads ⟨before, c :: tail⟩ [c] ⟨c :: before, tail⟩ := ⟨rfl, rfl⟩
    exact next.trans leads

theorem leads_append_iff {front back : List Char} :
    cursor.Leads (front ++ back) later ↔
      ∃ middle, cursor.Leads front middle ∧ middle.Leads back later := by
  constructor
  · intro leads
    refine ⟨⟨front.reverse ++ cursor.before, back ++ later.rest⟩, ⟨?_, rfl⟩, rfl, ?_⟩
    · rw [leads.rest_eq, List.append_assoc]
    · rw [leads.before_eq, List.reverse_append, List.append_assoc]
  · rintro ⟨middle, left, right⟩
    exact left.trans right

namespace Leads

theorem offset_eq (leads : cursor.Leads chars later) :
    later.offset = cursor.offset + byteLength chars := by
  rw [offset, leads.before_eq, byteLength_append, byteLength_reverse, Nat.add_comm]
  rfl

theorem chars_unique {others : List Char} (leads : cursor.Leads chars later)
    (also : cursor.Leads others later) : chars = others :=
  List.append_cancel_right (leads.rest_eq.symm.trans also.rest_eq)

theorem cursor_unique {other : Cursor} (leads : cursor.Leads chars later)
    (also : cursor.Leads chars other) : later = other := by
  obtain ⟨before, rest⟩ := later
  obtain ⟨otherBefore, otherRest⟩ := other
  have sameRest := List.append_cancel_left (leads.rest_eq.symm.trans also.rest_eq)
  have sameBefore := leads.before_eq.trans also.before_eq.symm
  simpa using ⟨sameBefore, sameRest⟩

end Leads

theorem mem_runs_iff {accepts : Char → Bool} {nearer : List Cursor} {before rest : List Char} :
    later ∈ runs accepts nearer before rest ↔
      later ∈ nearer ∨
        ∃ chars, Leads ⟨before, rest⟩ chars later ∧ ∀ c ∈ chars, accepts c = true := by
  refine ⟨leads_of_mem_runs, ?_⟩
  induction rest generalizing nearer before with
  | nil =>
    rintro (old | ⟨chars, leads, _⟩)
    · exact List.mem_cons_of_mem _ old
    · obtain rfl : chars = [] := (List.append_eq_nil_iff.mp leads.rest_eq.symm).1
      exact List.mem_cons.mpr (.inl (leads_nil_iff.mp leads))
  | cons c rest ih =>
    intro reached
    have stay : later ∈ nearer ∨ later = ⟨before, c :: rest⟩ →
        later ∈ (⟨before, c :: rest⟩ : Cursor) :: nearer := by
      rintro (old | rfl)
      · exact List.mem_cons_of_mem _ old
      · exact List.mem_cons_self
    simp only [runs]
    rcases reached with old | ⟨chars, leads, all⟩
    · split
      · exact ih (.inl (stay (.inl old)))
      · exact stay (.inl old)
    · cases chars with
      | nil =>
        have here := leads_nil_iff.mp leads
        split
        · exact ih (.inl (stay (.inr here)))
        · exact stay (.inr here)
      | cons d chars =>
        obtain ⟨tail, same, leads⟩ := leads_cons_iff.mp leads
        obtain ⟨rfl, rfl⟩ := List.cons.inj same
        rw [if_pos (all c List.mem_cons_self)]
        exact ih (.inr ⟨chars, leads, fun d member => all d (List.mem_cons_of_mem _ member)⟩)

/-- A run prefers to take every character of its class. -/
theorem head?_runs (accepts : Char → Bool) (nearer : List Cursor) (before rest : List Char) :
    (runs accepts nearer before rest).head? =
      some ⟨(rest.takeWhile accepts).reverse ++ before, rest.dropWhile accepts⟩ := by
  induction rest generalizing nearer before with
  | nil => rfl
  | cons c rest ih =>
    simp only [runs]
    split
    · rename_i accepted
      rw [ih, List.takeWhile_cons_of_pos accepted, List.dropWhile_cons_of_pos accepted]
      simp
    · rename_i refused
      rw [List.takeWhile_cons_of_neg refused, List.dropWhile_cons_of_neg refused]
      simp

/-- The places from the one behind `before` to the end of the text. -/
def onwardFrom (before : List Char) : List Char → List Cursor
  | [] => [⟨before, []⟩]
  | c :: rest => ⟨before, c :: rest⟩ :: onwardFrom (c :: before) rest

/-- The places from one to the end of the text. -/
def onward (cursor : Cursor) : List Cursor := onwardFrom cursor.before cursor.rest

theorem mem_onward_iff : later ∈ cursor.onward ↔ ∃ chars, cursor.Leads chars later := by
  obtain ⟨before, rest⟩ := cursor
  simp only [onward]
  induction rest generalizing before with
  | nil =>
    simp only [onwardFrom, List.mem_singleton]
    constructor
    · rintro rfl
      exact ⟨[], .refl _⟩
    · rintro ⟨chars, leads⟩
      obtain rfl : chars = [] := (List.append_eq_nil_iff.mp leads.rest_eq.symm).1
      exact leads_nil_iff.mp leads
  | cons c rest ih =>
    simp only [onwardFrom, List.mem_cons, ih]
    constructor
    · rintro (rfl | ⟨chars, leads⟩)
      · exact ⟨[], .refl _⟩
      · exact ⟨c :: chars, leads_cons_iff.mpr ⟨rest, rfl, leads⟩⟩
    · rintro ⟨chars, leads⟩
      cases chars with
      | nil => exact .inl (leads_nil_iff.mp leads)
      | cons d chars =>
        obtain ⟨tail, same, leads⟩ := leads_cons_iff.mp leads
        obtain ⟨rfl, rfl⟩ := List.cons.inj same
        exact .inr ⟨chars, leads⟩

/-- The places that follow one of the list are those onward from it. -/
theorem onward_eq_of_append {passed following : List Cursor}
    (split : cursor.onward = passed ++ later :: following) : later.onward = later :: following := by
  obtain ⟨before, rest⟩ := cursor
  simp only [onward] at split
  induction rest generalizing before passed with
  | nil =>
    cases passed with
    | nil =>
      obtain ⟨rfl, rfl⟩ := List.cons.inj split
      rfl
    | cons first passed => simp [onwardFrom] at split
  | cons c rest ih =>
    cases passed with
    | nil =>
      obtain ⟨rfl, rfl⟩ := List.cons.inj split
      rfl
    | cons first passed => exact ih (c :: before) (List.cons.inj split).2

/-- The places of a search are tried from left to right. -/
theorem pairwise_onward (cursor : Cursor) :
    cursor.onward.Pairwise fun a b => ∃ chars, chars ≠ [] ∧ a.Leads chars b := by
  obtain ⟨before, rest⟩ := cursor
  simp only [onward]
  induction rest generalizing before with
  | nil => exact List.pairwise_singleton _ _
  | cons c rest ih =>
    refine List.pairwise_cons.mpr ⟨?_, ih (c :: before)⟩
    intro later member
    have reached : later ∈ onward ⟨c :: before, rest⟩ := member
    obtain ⟨chars, leads⟩ := mem_onward_iff.mp reached
    exact ⟨c :: chars, by simp, leads_cons_iff.mpr ⟨rest, rfl, leads⟩⟩

/-- Reading on passes one place after the other. -/
theorem onward_of_leads (leads : cursor.Leads chars later) :
    ∃ passed, cursor.onward = passed ++ later.onward ∧
      ∀ inside ∈ passed, ∃ front back,
        cursor.Leads front inside ∧ back ≠ [] ∧ inside.Leads back later := by
  induction chars generalizing cursor with
  | nil =>
    obtain rfl := leads_nil_iff.mp leads
    exact ⟨[], rfl, by simp⟩
  | cons c chars ih =>
    obtain ⟨before, rest⟩ := cursor
    obtain ⟨tail, rfl, onwards⟩ := leads_cons_iff.mp leads
    obtain ⟨passed, split, inside⟩ := ih onwards
    refine ⟨⟨before, c :: tail⟩ :: passed, congrArg _ split, ?_⟩
    intro cursor member
    rcases List.mem_cons.mp member with rfl | member
    · exact ⟨[], c :: chars, .refl _, by simp, leads⟩
    · obtain ⟨front, back, toInside, some, toLater⟩ := inside cursor member
      exact ⟨c :: front, back, leads_cons_iff.mpr ⟨tail, rfl, toInside⟩, some, toLater⟩

end Cursor

namespace Pattern

variable {accepts : Char → Bool} {first second inner pattern : Pattern}
  {progress reached : Progress} {cursor : Cursor} {found : Match}

theorem mem_ends_one : reached ∈ (one accepts).ends progress ↔
    ∃ c, accepts c = true ∧ progress.cursor.Leads [c] reached.cursor ∧
      reached.group = progress.group := by
  obtain ⟨⟨before, rest⟩, taken⟩ := progress
  obtain ⟨later, group⟩ := reached
  simp only [Cursor.leads_cons_iff, Cursor.leads_nil_iff]
  cases rest with
  | nil => simp [ends]
  | cons c rest =>
    simp only [ends]
    constructor
    · intro member
      split at member
      · rename_i accepted
        obtain ⟨rfl, rfl⟩ := Progress.mk.inj (List.mem_singleton.mp member)
        exact ⟨c, accepted, ⟨rest, rfl, rfl⟩, rfl⟩
      · simp at member
    · rintro ⟨d, accepted, ⟨tail, same, rfl⟩, rfl⟩
      obtain ⟨rfl, rfl⟩ := List.cons.inj same
      simp [accepted]

/-- A repetition may stop after any number of accepted characters. -/
theorem mem_ends_many : reached ∈ (many accepts).ends progress ↔
    ∃ chars, (∀ c ∈ chars, accepts c = true) ∧ progress.cursor.Leads chars reached.cursor ∧
      reached.group = progress.group := by
  obtain ⟨⟨before, rest⟩, taken⟩ := progress
  obtain ⟨later, group⟩ := reached
  simp only [ends, List.mem_map, Cursor.mem_runs_iff, List.not_mem_nil, false_or,
    Progress.mk.injEq]
  constructor
  · rintro ⟨cursor, ⟨chars, leads, all⟩, rfl, rfl⟩
    exact ⟨chars, all, leads, rfl⟩
  · rintro ⟨chars, all, leads, rfl⟩
    exact ⟨later, ⟨chars, leads, all⟩, rfl, rfl⟩

theorem mem_ends_seq : reached ∈ (seq first second).ends progress ↔
    ∃ middle ∈ first.ends progress, reached ∈ second.ends middle :=
  List.mem_flatMap

theorem mem_ends_group : reached ∈ (group inner).ends progress ↔
    ∃ inside ∈ inner.ends progress, inside.cursor = reached.cursor ∧
      reached.group = some (progress.cursor.stretch reached.cursor) := by
  obtain ⟨later, group⟩ := reached
  simp only [ends, List.mem_map, Progress.mk.injEq]
  constructor
  · rintro ⟨inside, within, rfl, rfl⟩
    exact ⟨inside, within, rfl, rfl⟩
  · rintro ⟨inside, within, rfl, rfl⟩
    exact ⟨inside, within, rfl, rfl⟩

theorem mem_ends_assertion {holds : Cursor → Bool} : reached ∈ (assertion holds).ends progress ↔
    holds progress.cursor = true ∧ reached = progress := by
  simp only [ends]
  split <;> simp_all

/-- A pattern fits one stretch at most from every place. -/
def Unambiguous (pattern : Pattern) : Prop :=
  ∀ progress, ∀ a ∈ pattern.ends progress, ∀ b ∈ pattern.ends progress, a = b

/-- Where there is nothing to choose from, preference does not matter. -/
theorem matchAt?_eq_some_iff (unambiguous : pattern.Unambiguous) :
    pattern.matchAt? cursor = some found ↔
      found.start = cursor ∧ ⟨found.stop, found.group⟩ ∈ pattern.ends ⟨cursor, none⟩ := by
  refine ⟨mem_ends_of_matchAt?, ?_⟩
  rintro ⟨rfl, member⟩
  obtain ⟨preferred, others, split⟩ := List.exists_cons_of_ne_nil (List.ne_nil_of_mem member)
  have same := unambiguous _ _ member preferred (by rw [split]; exact List.mem_cons_self)
  rw [matchAt?, split, ← same]
  rfl

theorem matchAt?_eq_none_iff :
    pattern.matchAt? cursor = none ↔ pattern.ends ⟨cursor, none⟩ = [] := by
  rw [matchAt?, Option.map_eq_none_iff, List.head?_eq_none_iff]

/-- The leftmost place wins, whatever could be found further on. -/
theorem search?_eq (pattern : Pattern) (cursor : Cursor) :
    pattern.search? cursor = cursor.onward.findSome? pattern.matchAt? := by
  obtain ⟨before, rest⟩ := cursor
  simp only [search?, Cursor.onward]
  induction rest generalizing before with
  | nil =>
    simp only [searchFrom?, Cursor.onwardFrom, List.findSome?_cons, List.findSome?_nil]
    split <;> simp_all
  | cons c rest ih =>
    simp only [searchFrom?, Cursor.onwardFrom, List.findSome?_cons, ih]
    split <;> simp_all

theorem search?_of_matchAt? (fits : pattern.matchAt? cursor = some found) :
    pattern.search? cursor = some found := by
  obtain ⟨before, rest⟩ := cursor
  cases rest with
  | nil => exact fits
  | cons c rest => rw [search?, searchFrom?, fits, Option.some_or]

theorem isMatch_iff {text : List Char} : pattern.isMatch text = true ↔
    ∃ chars cursor reached, Cursor.Leads (.start text) chars cursor ∧
      reached ∈ pattern.ends ⟨cursor, none⟩ := by
  rw [isMatch, search?_eq, List.findSome?_isSome_iff]
  constructor
  · rintro ⟨cursor, onward, fits⟩
    obtain ⟨chars, leads⟩ := Cursor.mem_onward_iff.mp onward
    obtain ⟨found, fits⟩ := Option.isSome_iff_exists.mp fits
    exact ⟨chars, cursor, _, leads, (mem_ends_of_matchAt? fits).2⟩
  · rintro ⟨chars, cursor, reached, leads, member⟩
    refine ⟨cursor, Cursor.mem_onward_iff.mpr ⟨chars, leads⟩, ?_⟩
    rw [← Option.ne_none_iff_isSome]
    intro refused
    rw [matchAt?_eq_none_iff.mp refused] at member
    exact List.not_mem_nil member

/-- A text that is a name is a match as a whole, if what is asked of its ends holds there. -/
theorem isMatch_of_name {initial inner : Char → Bool} {front back : Cursor → Bool} {first : Char}
    {rest : List Char} (isInitial : initial first = true) (areInner : ∀ c ∈ rest, inner c = true)
    (atStart : front (.start (first :: rest)) = true)
    (atEnd : back ⟨rest.reverse ++ [first], []⟩ = true) :
    (seq (assertion front) (seq (one initial) (seq (many inner) (assertion back)))).isMatch
      (first :: rest) = true := by
  let behindFirst : Progress := ⟨⟨[first], rest⟩, none⟩
  let behindRest : Progress := ⟨⟨rest.reverse ++ [first], []⟩, none⟩
  have toFirst : (Cursor.start (first :: rest)).Leads [first] behindFirst.cursor := ⟨rfl, rfl⟩
  have toRest : behindFirst.cursor.Leads rest behindRest.cursor :=
    ⟨(List.append_nil rest).symm, rfl⟩
  refine isMatch_iff.mpr ⟨[], _, behindRest, .refl _, ?_⟩
  simp only [mem_ends_seq, mem_ends_one, mem_ends_many, mem_ends_assertion]
  exact ⟨_, ⟨atStart, rfl⟩, behindFirst, ⟨first, isInitial, toFirst, rfl⟩, behindRest,
    ⟨rest, areInner, toRest, rfl⟩, atEnd, rfl⟩

/-- An anchored name has to be the whole text. -/
theorem isMatch_wholeName_iff {initial inner : Char → Bool} {text : List Char} :
    (wholeName initial inner).isMatch text = true ↔
      ∃ first rest, text = first :: rest ∧ initial first = true ∧
        ∀ c ∈ rest, inner c = true := by
  constructor
  · simp only [wholeName, isMatch_iff, mem_ends_seq, mem_ends_one, mem_ends_many, textStart,
      textEnd, mem_ends_assertion, List.isEmpty_iff]
    rintro ⟨chars, cursor, reached, leads, _, ⟨atStart, rfl⟩, _, ⟨first, isInitial, toFirst, _⟩, _,
      ⟨rest, areInner, toEnd, _⟩, atEnd, rfl⟩
    obtain rfl : chars = [] := by
      have read := leads.before_eq
      rw [atStart] at read
      simpa [Cursor.start] using read
    obtain rfl := Cursor.leads_nil_iff.mp leads
    refine ⟨first, rest, ?_, isInitial, areInner⟩
    have whole := (toFirst.trans toEnd).rest_eq
    rw [atEnd, List.append_nil] at whole
    exact whole
  · rintro ⟨first, rest, rfl, isInitial, areInner⟩
    exact isMatch_of_name isInitial areInner rfl rfl

/-- No match begins behind the first character of another one and before its end. -/
def Apart (pattern : Pattern) : Prop :=
  ∀ cursor found, pattern.matchAt? cursor = some found →
    ∀ front inside back, front ≠ [] → cursor.Leads front inside → back ≠ [] →
      inside.Leads back found.stop → pattern.matchAt? inside = none

/-- Between its start and its end, a match that is apart leaves room for no other. -/
theorem filterMap_onward_of_matchAt? (takes : pattern.consumes = true) (apart : pattern.Apart)
    (fits : pattern.matchAt? cursor = some found) :
    cursor.onward.filterMap pattern.matchAt? =
      found :: found.stop.onward.filterMap pattern.matchAt? := by
  obtain ⟨taken, leads, takesSome⟩ := leads_of_mem_ends (mem_ends_of_matchAt? fits).2
  obtain ⟨c, chars, rfl⟩ := List.exists_cons_of_ne_nil (takesSome takes)
  obtain ⟨before, rest⟩ := cursor
  obtain ⟨tail, rfl, onwards⟩ := Cursor.leads_cons_iff.mp leads
  obtain ⟨passed, split, inside⟩ := Cursor.onward_of_leads onwards
  have refused : passed.filterMap pattern.matchAt? = [] := by
    apply List.filterMap_eq_nil_iff.mpr
    intro cursor member
    obtain ⟨front, back, toCursor, some, toStop⟩ := inside cursor member
    have fromStart := Cursor.leads_cons_iff.mpr ⟨tail, rfl, toCursor⟩
    exact apart _ _ fits (c :: front) cursor back (by simp) fromStart some toStop
  change List.filterMap _ (_ :: Cursor.onward ⟨c :: before, tail⟩) = _
  rw [split, List.filterMap_cons_some fits, List.filterMap_append, refused]
  rfl

/-- No match of a pattern that is apart is missed because an earlier one took its characters. -/
theorem scan_eq (takes : pattern.consumes = true) (apart : pattern.Apart) (cursor : Cursor) :
    pattern.scan takes cursor = cursor.onward.filterMap pattern.matchAt? := by
  fun_induction scan pattern takes cursor with
  | case1 cursor nothing =>
    rw [search?_eq, List.findSome?_eq_none_iff] at nothing
    exact (List.filterMap_eq_nil_iff.mpr nothing).symm
  | case2 cursor found sought ih =>
    rw [search?_eq] at sought
    obtain ⟨passed, start, following, split, fits, skipped⟩ :=
      List.findSome?_eq_some_iff.mp sought
    have onward := Cursor.onward_eq_of_append split
    rw [split, List.filterMap_append, List.filterMap_eq_nil_iff.mpr skipped, ← onward,
      filterMap_onward_of_matchAt? takes apart fits, ih]
    rfl

end Pattern

end LineLint.Text
