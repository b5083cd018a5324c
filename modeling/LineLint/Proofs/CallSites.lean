import LineLint.Proofs.Columns
import LineLint.Proofs.Patterns
import LineLint.Rules.MethodNaming

/-! # Call sites

The candidates of the rule on the names of methods are exactly the identifiers that stand between a
blank and an opening parenthesis. No two of them share a character with which they are found, so
that the scan misses none.
-/

namespace LineLint.Rules.MethodNaming

open Text

/-- A letter or an underscore, and after it letters, digits and underscores. -/
def IsIdentifier (name : List Char) : Prop :=
  ∃ first rest, name = first :: rest ∧ isInitial first = true ∧ ∀ c ∈ rest, isInner c = true

/-- Behind the characters `front` of a text stands an identifier, with a blank right before it and
an opening parenthesis right behind it. -/
structure CallSite (text front name : List Char) : Prop where
  identifier : IsIdentifier name
  blank_before : ∃ earlier blank, front = earlier ++ [blank] ∧ isBlank blank = true
  parenthesis_behind : ∃ later, text = front ++ name ++ '(' :: later

namespace CallSite

variable {text front name : List Char}

theorem front_prefix (site : CallSite text front name) : front <+: text := by
  obtain ⟨later, cut⟩ := site.parenthesis_behind
  exact ⟨name ++ '(' :: later, by rw [cut, List.append_assoc]⟩

/-- A finding is placed at the first character of the name, not at the blank before it. -/
theorem columnAt_eq (site : CallSite text front name) :
    columnAt text (byteLength front) = front.length + 1 := by
  obtain ⟨later, rfl⟩ := site.front_prefix
  exact columnAt_byteLength front later

end CallSite

theorem isInner_of_isInitial {c : Char} (initial : isInitial c = true) : isInner c = true := by
  simp only [isInitial, Bool.or_eq_true] at initial
  simp only [isInner, Char.isAlphanum, Bool.or_eq_true]
  rcases initial with alpha | underscore
  · exact .inl (.inl alpha)
  · exact .inr underscore

theorem isBlank_eq_false_of_isInner {c : Char} (inner : isInner c = true) : isBlank c = false := by
  simp only [isInner, Bool.or_eq_true, beq_iff_eq] at inner
  rcases inner with alphanum | rfl
  · exact isBlank_eq_false_of_isAlphanum alphanum
  · rfl

namespace IsIdentifier

variable {name : List Char}

theorem inner (identifier : IsIdentifier name) : ∀ c ∈ name, isInner c = true := by
  obtain ⟨first, rest, rfl, initial, inner⟩ := identifier
  intro c member
  rcases List.mem_cons.mp member with rfl | member
  · exact isInner_of_isInitial initial
  · exact inner c member

/-- An identifier ends where the first other character stands. -/
theorem takeWhile_eq (identifier : IsIdentifier name) (later : List Char) :
    (name ++ '(' :: later).takeWhile isInner = name := by
  rw [List.takeWhile_append_of_pos identifier.inner, List.takeWhile_cons_of_neg (by decide),
    List.append_nil]

/-- There is no blank in an identifier and in the parenthesis behind it. -/
theorem isBlank_eq_false (identifier : IsIdentifier name) :
    ∀ c ∈ name ++ ['('], isBlank c = false := by
  intro c member
  rcases List.mem_append.mp member with inside | behind
  · exact isBlank_eq_false_of_isInner (identifier.inner c inside)
  · rw [List.mem_singleton.mp behind]
    rfl

end IsIdentifier

theorem offset_of_leads_one {cursor later : Cursor} {c : Char} (leads : cursor.Leads [c] later) :
    later.offset = cursor.offset + c.utf8Size := by
  rw [leads.offset_eq, byteLength_cons, byteLength_nil, Nat.add_zero]

/-- What the pattern takes, without regard to how it comes to take it. -/
theorem mem_ends_site {progress reached : Progress} :
    reached ∈ site.ends progress ↔
      ∃ blank name, isBlank blank = true ∧ IsIdentifier name ∧
        progress.cursor.Leads ([blank] ++ name ++ ['(']) reached.cursor ∧
        reached.group = some ⟨progress.cursor.offset + blank.utf8Size, name⟩ := by
  simp only [site, Pattern.mem_ends_seq, Pattern.mem_ends_one, Pattern.mem_ends_group,
    Pattern.mem_ends_many]
  constructor
  · rintro ⟨behindBlank, ⟨blank, isBlank, toBlank, _⟩, behindName, ⟨_, ⟨_, ⟨first, initial, toFirst,
      _⟩, rest, inner, toRest, _⟩, same, grouped⟩, paren, isParen, toParen, kept⟩
    rw [same] at toRest
    have toName := toFirst.trans toRest
    obtain rfl := beq_iff_eq.mp isParen
    refine ⟨blank, [first] ++ rest, isBlank, ⟨first, rest, rfl, initial, inner⟩,
      (toBlank.trans toName).trans toParen, ?_⟩
    rw [kept, grouped, toName.stretch_eq, offset_of_leads_one toBlank]
  · rintro ⟨blank, _, isBlank, ⟨first, rest, rfl, initial, inner⟩, leads, grouped⟩
    obtain ⟨behindName, toName, toParen⟩ := Cursor.leads_append_iff.mp leads
    obtain ⟨behindBlank, toBlank, toName⟩ := Cursor.leads_append_iff.mp toName
    obtain ⟨behindFirst, toFirst, toRest⟩ :=
      Cursor.leads_append_iff.mp (show behindBlank.Leads ([first] ++ rest) behindName from toName)
    refine ⟨⟨behindBlank, progress.group⟩, ⟨blank, isBlank, toBlank, rfl⟩,
      ⟨behindName, reached.group⟩, ?_, '(', rfl, toParen, rfl⟩
    refine ⟨⟨behindName, progress.group⟩, ⟨⟨behindFirst, progress.group⟩,
      ⟨first, initial, toFirst, rfl⟩, rest, inner, toRest, rfl⟩, rfl, ?_⟩
    rw [grouped, toName.stretch_eq, offset_of_leads_one toBlank]

/-- A call site fits from a place in one way at most, as an identifier has one end there. -/
theorem unambiguous_site : site.Unambiguous := by
  intro progress a memberA b memberB
  obtain ⟨blank, name, _, identifier, leads, grouped⟩ := mem_ends_site.mp memberA
  obtain ⟨otherBlank, other, _, otherIdentifier, otherLeads, otherGrouped⟩ :=
    mem_ends_site.mp memberB
  -- Both names end where the first character stands that cannot be in a name.
  have cut := leads.rest_eq.symm.trans otherLeads.rest_eq
  simp only [List.append_assoc, List.cons_append, List.nil_append, List.cons.injEq] at cut
  obtain ⟨rfl, cut⟩ := cut
  obtain rfl : name = other := by
    rw [← identifier.takeWhile_eq a.cursor.rest, cut, otherIdentifier.takeWhile_eq]
  have sameCursor := leads.cursor_unique otherLeads
  have sameGroup := grouped.trans otherGrouped.symm
  obtain ⟨cursor, group⟩ := a
  obtain ⟨otherCursor, otherGroup⟩ := b
  simpa using ⟨sameCursor, sameGroup⟩

/-- Only a blank begins a match, and there is none in an identifier or in the parenthesis. -/
theorem apart_site : site.Apart := by
  intro cursor found fits front inside back frontTakes toInside backTakes toStop
  obtain ⟨blank, name, _, identifier, leads, _⟩ :=
    mem_ends_site.mp (Pattern.mem_ends_of_matchAt? fits).2
  obtain ⟨c, front, rfl⟩ := List.exists_cons_of_ne_nil frontTakes
  obtain ⟨d, back, rfl⟩ := List.exists_cons_of_ne_nil backTakes
  -- The character at which the other match would begin is one that this match has taken.
  have taken := leads.chars_unique (toInside.trans toStop)
  simp only [List.cons_append, List.nil_append, List.cons.injEq] at taken
  have within : d ∈ name ++ ['('] := by
    rw [taken.2]
    simp
  have notBlank := identifier.isBlank_eq_false d within
  rw [Pattern.matchAt?_eq_none_iff, List.eq_nil_iff_forall_not_mem]
  intro reached member
  obtain ⟨other, _, isBlank, _, otherLeads, _⟩ := mem_ends_site.mp member
  have same := toStop.rest_eq.symm.trans otherLeads.rest_eq
  simp only [List.append_assoc, List.cons_append, List.nil_append, List.cons.injEq] at same
  rw [same.1, isBlank] at notBlank
  contradiction

/-- The candidates are found place by place. -/
theorem candidates_eq (text : List Char) :
    candidates text =
      (Cursor.start text).onward.filterMap fun cursor =>
        (site.matchAt? cursor).bind Match.group := by
  rw [candidates, Pattern.scan_eq rfl apart_site, List.filterMap_filterMap]

theorem bind_group_eq_some_iff {cursor : Cursor} {span : Span} :
    (site.matchAt? cursor).bind Match.group = some span ↔
      ∃ blank, isBlank blank = true ∧ IsIdentifier span.chars ∧
        span.start = cursor.offset + blank.utf8Size ∧
        ∃ later, cursor.rest = [blank] ++ span.chars ++ '(' :: later := by
  simp only [Option.bind_eq_some_iff, Pattern.matchAt?_eq_some_iff unambiguous_site, mem_ends_site]
  constructor
  · rintro ⟨found, ⟨_, blank, name, isBlank, identifier, leads, grouped⟩, group⟩
    obtain rfl := Option.some.inj (grouped.symm.trans group)
    refine ⟨blank, isBlank, identifier, rfl, found.stop.rest, ?_⟩
    simpa using leads.rest_eq
  · obtain ⟨start, name⟩ := span
    rintro ⟨blank, isBlank, identifier, rfl, later, cut⟩
    let taken := [blank] ++ name ++ ['(']
    refine ⟨⟨cursor, ⟨taken.reverse ++ cursor.before, later⟩, _⟩,
      ⟨rfl, blank, name, isBlank, identifier, ⟨?_, rfl⟩, rfl⟩, rfl⟩
    simpa [taken] using cut

/-- The candidates are exactly the call sites, each at the byte at which its name begins. -/
theorem mem_candidates_iff {text : List Char} {span : Span} :
    span ∈ candidates text ↔
      ∃ front, CallSite text front span.chars ∧ span.start = byteLength front := by
  simp only [candidates_eq, List.mem_filterMap, Cursor.mem_onward_iff, bind_group_eq_some_iff]
  constructor
  · rintro ⟨cursor, ⟨earlier, leads⟩, blank, isBlank, identifier, start, later, cut⟩
    refine ⟨earlier ++ [blank], ⟨identifier, ⟨earlier, blank, rfl, isBlank⟩, later, ?_⟩, ?_⟩
    · have whole : text = earlier ++ cursor.rest := leads.rest_eq
      rw [whole, cut]
      simp
    · rw [start, leads.offset_eq]
      simp [Cursor.offset, Cursor.start]
  · rintro ⟨_, ⟨identifier, ⟨earlier, blank, rfl, isBlank⟩, later, whole⟩, start⟩
    refine ⟨⟨earlier.reverse, [blank] ++ span.chars ++ '(' :: later⟩, ⟨earlier, ?_, ?_⟩, blank,
      isBlank, identifier, ?_, later, rfl⟩
    · simpa [Cursor.start] using whole
    · simp [Cursor.start]
    · simpa [Cursor.offset] using start

/-- The candidates come from left to right. -/
theorem pairwise_candidates (text : List Char) :
    (candidates text).Pairwise fun a b => a.start < b.start := by
  rw [candidates_eq]
  apply (Cursor.pairwise_onward _).filterMap
  rintro cursor other ⟨chars, some, leads⟩ a foundA b foundB
  obtain ⟨blank, _, _, startA, later, cut⟩ := bind_group_eq_some_iff.mp foundA
  obtain ⟨otherBlank, _, _, startB, _⟩ := bind_group_eq_some_iff.mp foundB
  obtain ⟨c, chars, rfl⟩ := List.exists_cons_of_ne_nil some
  have read := leads.rest_eq.symm.trans cut
  simp only [List.cons_append, List.nil_append, List.cons.injEq] at read
  have passed := leads.offset_eq
  have positive := otherBlank.utf8Size_pos
  rw [byteLength_cons, read.1] at passed
  omega

/-- An identifier misses Pascal case by its first character or by an underscore. -/
theorem IsIdentifier.isPascalCase_eq_false_iff {name : List Char} (identifier : IsIdentifier name) :
    isPascalCase name = false ↔ (∀ c ∈ name.head?, c.isUpper = false) ∨ '_' ∈ name := by
  rw [← Bool.not_eq_true, isPascalCase, pascalCase, Pattern.isMatch_wholeName_iff]
  obtain ⟨first, rest, rfl, _, inner⟩ := identifier
  constructor
  · intro missed
    by_cases upper : first.isUpper = true
    · by_cases underscore : '_' ∈ rest
      · exact .inr (List.mem_cons_of_mem _ underscore)
      · refine absurd ⟨first, rest, rfl, upper, ?_⟩ missed
        intro c member
        have kind := inner c member
        simp only [isInner, Bool.or_eq_true, beq_iff_eq] at kind
        rcases kind with alphanum | rfl
        · exact alphanum
        · exact absurd member underscore
    · exact .inl (by simpa using upper)
  · rintro missed ⟨head, tail, same, upper, alphanum⟩
    obtain ⟨rfl, rfl⟩ := List.cons.inj same
    rcases missed with lower | underscore
    · have lower : first.isUpper = false := lower first rfl
      rw [upper] at lower
      contradiction
    · rcases List.mem_cons.mp underscore with rfl | member
      · exact absurd upper (by decide)
      · exact absurd (alphanum '_' member) (by decide)

namespace CallSite

variable {text front name other otherName : List Char}

/-- Behind a blank there is one call site at most. -/
theorem name_unique (first : CallSite text front name) (second : CallSite text front otherName) :
    name = otherName := by
  obtain ⟨later, cut⟩ := first.parenthesis_behind
  obtain ⟨otherLater, otherCut⟩ := second.parenthesis_behind
  have same : name ++ '(' :: later = otherName ++ '(' :: otherLater := by
    rw [cut, List.append_assoc, List.append_assoc] at otherCut
    exact List.append_cancel_left otherCut
  rw [← first.identifier.takeWhile_eq later, same, second.identifier.takeWhile_eq]

/-- Of two call sites the first one ends, with its parenthesis, in front of the blank of the
second. -/
theorem apart (first : CallSite text front name) (second : CallSite text other otherName)
    (further : front.length < other.length) : front ++ name ++ ['('] <+: other.dropLast := by
  obtain ⟨later, cut⟩ := first.parenthesis_behind
  obtain ⟨earlier, blank, rfl, isBlank⟩ := second.blank_before
  rw [List.dropLast_concat]
  have whole : front ++ name ++ ['('] <+: text := ⟨later, by rw [cut, List.append_assoc]; rfl⟩
  have toBlank : earlier ++ [blank] <+: text := second.front_prefix
  have early : earlier <+: text := (List.prefix_append earlier [blank]).trans toBlank
  refine List.prefix_of_prefix_length_le whole early (Nat.le_of_not_lt fun overlap => ?_)
  -- Otherwise the first site would have taken the blank.
  rw [List.length_append, List.length_singleton] at further
  obtain ⟨between, rfl⟩ :=
    List.prefix_of_prefix_length_le first.front_prefix early (Nat.le_of_lt_succ further)
  have inside : front ++ between ++ [blank] <+: front ++ name ++ ['('] := by
    refine List.prefix_of_prefix_length_le toBlank whole ?_
    rw [List.length_append, List.length_singleton]
    exact overlap
  rw [List.append_assoc, List.append_assoc, List.prefix_append_right_inj] at inside
  have notBlank := first.identifier.isBlank_eq_false blank (inside.subset (by simp))
  rw [isBlank] at notBlank
  contradiction

end CallSite

/-- The bytes of a text from `start` up to `stop` are an identifier, a blank ends where they start,
and an opening parenthesis starts where they end. -/
def IsSiteBetween (text : List Char) (start stop : Nat) : Prop :=
  ∃ before name behind, text = before ++ name ++ behind ∧ byteLength before = start ∧
    byteLength (before ++ name) = stop ∧ IsIdentifier name ∧
    (∃ blank, before.getLast? = some blank ∧ isBlank blank = true) ∧ behind.head? = some '('

/-- The call sites by their byte offsets are the call sites by their texts. -/
theorem isSiteBetween_iff {text : List Char} {start stop : Nat} :
    IsSiteBetween text start stop ↔
      ∃ front name, CallSite text front name ∧ byteLength front = start ∧
        byteLength (front ++ name) = stop := by
  constructor
  · rintro ⟨front, name, behind, cut, start, stop, identifier, ⟨blank, last, isBlank⟩, head⟩
    obtain ⟨earlier, ends⟩ := List.getLast?_eq_some_iff.mp last
    obtain ⟨later, begins⟩ := List.head?_eq_some_iff.mp head
    exact ⟨front, name, ⟨identifier, ⟨earlier, blank, ends, isBlank⟩, later, begins ▸ cut⟩, start,
      stop⟩
  · rintro ⟨front, name, ⟨identifier, ⟨earlier, blank, ends, isBlank⟩, later, cut⟩, start, stop⟩
    exact ⟨front, name, '(' :: later, cut, start, stop, identifier,
      ⟨blank, by rw [ends, List.getLast?_concat], isBlank⟩, rfl⟩

/-- The candidates come from left to right and share no character, not even the blanks and the
parentheses with which they are found, and they are exactly the stretches of the text that are
identifiers between a blank and an opening parenthesis. Behind a blank there is one at most. -/
theorem candidates_are_call_sites (text : List Char) :
    (candidates text).Pairwise (fun a b => a.start < b.start ∧ a.stop < b.start) ∧
      (∀ start stop, IsSiteBetween text start stop ↔
        ∃ span ∈ candidates text, span.start = start ∧ span.stop = stop) ∧
      (∀ span ∈ candidates text, ∃ before behind,
        text = before ++ span.chars ++ behind ∧ byteLength before = span.start) ∧
      (∀ front name other otherName, CallSite text front name → CallSite text other otherName →
        front.length < other.length → front ++ name ++ ['('] <+: other.dropLast) ∧
      ∀ start stop otherStop, IsSiteBetween text start stop → IsSiteBetween text start otherStop →
        stop = otherStop := by
  refine ⟨?_, ?_, ?_, ?_, ?_⟩
  · apply (pairwise_candidates text).imp_of_mem
    intro a b member alsoMember further
    refine ⟨further, ?_⟩
    obtain ⟨front, site, start⟩ := mem_candidates_iff.mp member
    obtain ⟨other, otherSite, otherStart⟩ := mem_candidates_iff.mp alsoMember
    rw [start, otherStart] at further
    have longer := (byteLength_lt_iff site.front_prefix otherSite.front_prefix).mp further
    obtain ⟨between, cut⟩ := site.apart otherSite longer
    have within := congrArg byteLength cut
    obtain ⟨earlier, blank, rfl, -⟩ := otherSite.blank_before
    have positive := blank.utf8Size_pos
    simp only [List.dropLast_concat, byteLength_append, byteLength_cons] at within
    rw [Span.stop, start, otherStart, byteLength_append, byteLength_cons]
    omega
  · intro start stop
    simp only [isSiteBetween_iff, mem_candidates_iff]
    constructor
    · rintro ⟨front, name, site, rfl, rfl⟩
      exact ⟨⟨byteLength front, name⟩, ⟨front, site, rfl⟩, rfl, (byteLength_append front name).symm⟩
    · rintro ⟨span, ⟨front, site, begins⟩, rfl, rfl⟩
      exact ⟨front, span.chars, site, begins.symm, by rw [Span.stop, begins, byteLength_append]⟩
  · intro span member
    obtain ⟨front, ⟨-, -, later, cut⟩, start⟩ := mem_candidates_iff.mp member
    exact ⟨front, '(' :: later, cut, start.symm⟩
  · intro front name other otherName first second further
    exact first.apart second further
  · intro start stop otherStop first second
    obtain ⟨front, name, site, begins, rfl⟩ := isSiteBetween_iff.mp first
    obtain ⟨other, otherName, otherSite, otherBegins, rfl⟩ := isSiteBetween_iff.mp second
    obtain rfl := eq_of_byteLength_eq site.front_prefix otherSite.front_prefix
      (begins.trans otherBegins.symm)
    rw [site.name_unique otherSite]

end LineLint.Rules.MethodNaming
