import LineLint.Proofs.Columns
import LineLint.Proofs.Patterns
import LineLint.Rules.VariableNaming
import LineLint.Text.Blank
import Mathlib.Data.List.Infix
import Mathlib.Data.List.TakeWhile

/-! # Words

The words of a text are its maximal runs of word characters. A candidate of the rule on the names of
variables begins and ends at edges of words and holds word characters alone. So it is a whole word,
and the candidates are the words of ASCII letters and digits that begin with a small letter.
-/

namespace LineLint.Text

theorem isWordChar_of_isAlphanum {c : Char} (alphanum : c.isAlphanum = true) :
    isWordChar c = true := by
  have bounds := toNat_of_isAlphanum alphanum
  rw [isWordChar_of_ascii (by omega), isAsciiWordChar, alphanum, Bool.true_or]

/-- Behind the characters `front` of a text stands a word: a run of word characters that none comes
before and none comes behind. -/
structure WordAt (text front chars : List Char) : Prop where
  nonempty : chars ≠ []
  wordChars : ∀ c ∈ chars, isWordChar c = true
  none_before : ∀ c ∈ front.getLast?, isWordChar c = false
  none_behind : ∃ behind, text = front ++ chars ++ behind ∧ ∀ c ∈ behind.head?, isWordChar c = false

/-- A run of word characters is taken as a whole where no word character stands behind it. -/
theorem takeWhile_isWordChar_eq_iff {chars behind : List Char}
    (wordChars : ∀ c ∈ chars, isWordChar c = true) :
    (chars ++ behind).takeWhile isWordChar = chars ↔ ∀ c ∈ behind.head?, isWordChar c = false := by
  rw [List.takeWhile_append_of_pos wordChars]
  cases behind with
  | nil => simp
  | cons c behind => cases wordChar : isWordChar c <;> simp [wordChar]

namespace Cursor

/-- The word that starts at a place, if one does. -/
def word? (cursor : Cursor) : Option Span :=
  let chars := cursor.rest.takeWhile isWordChar
  if cursor.before.head?.any isWordChar || chars.isEmpty then none
  else some ⟨cursor.offset, chars⟩

variable {cursor later : Cursor} {chars : List Char} {span : Span}

theorem word?_eq_some_iff : cursor.word? = some span ↔
    (∀ c ∈ cursor.before.head?, isWordChar c = false) ∧ span.chars ≠ [] ∧
      span = ⟨cursor.offset, cursor.rest.takeWhile isWordChar⟩ := by
  rw [word?, Option.ite_none_left_eq_some, Bool.or_eq_true, not_or, Bool.not_eq_true,
    Option.any_eq_false, List.isEmpty_iff, Option.some.injEq, and_assoc]
  refine and_congr_right fun _ => ?_
  constructor
  · rintro ⟨nonempty, rfl⟩
    exact ⟨nonempty, rfl⟩
  · rintro ⟨nonempty, rfl⟩
    exact ⟨nonempty, rfl⟩

/-- Around word characters there is an edge on either side where no other one stands. -/
theorem isWordEdge_iff (leads : cursor.Leads chars later) (nonempty : chars ≠ [])
    (wordChars : ∀ c ∈ chars, isWordChar c = true) :
    (cursor.isWordEdge = true ↔ ∀ c ∈ cursor.before.head?, isWordChar c = false) ∧
      (later.isWordEdge = true ↔ ∀ c ∈ later.rest.head?, isWordChar c = false) := by
  have next : cursor.rest.head?.any isWordChar = true := by
    obtain ⟨first, others, rfl⟩ := List.exists_cons_of_ne_nil nonempty
    simp [leads.rest_eq, wordChars first List.mem_cons_self]
  have previous : later.before.head?.any isWordChar = true := by
    obtain ⟨last, others, backwards⟩ :=
      List.exists_cons_of_ne_nil (List.reverse_ne_nil_iff.mpr nonempty)
    have member : last ∈ chars := by
      rw [← List.mem_reverse, backwards]
      exact List.mem_cons_self
    simp [leads.before_eq, backwards, wordChars last member]
  rw [isWordEdge, next, isWordEdge, previous]
  simp [Option.any_eq_false]

end Cursor

def words (text : List Char) : List Span := (Cursor.start text).onward.filterMap Cursor.word?

theorem mem_words_iff {text : List Char} {span : Span} :
    span ∈ words text ↔ ∃ front, WordAt text front span.chars ∧ span.start = byteLength front := by
  simp only [words, List.mem_filterMap, Cursor.mem_onward_iff, Cursor.word?_eq_some_iff]
  constructor
  · rintro ⟨cursor, ⟨front, leads⟩, fresh, nonempty, rfl⟩
    have wordChars : ∀ c ∈ cursor.rest.takeWhile isWordChar, isWordChar c = true := fun c =>
      List.mem_takeWhile_imp
    have cut := List.takeWhile_append_dropWhile (p := isWordChar) (l := cursor.rest)
    have before : cursor.before = front.reverse := by simpa [Cursor.start] using leads.before_eq
    refine ⟨front, ⟨nonempty, wordChars, ?_, cursor.rest.dropWhile isWordChar, ?_, ?_⟩, ?_⟩
    · rwa [← List.head?_reverse, ← before]
    · rw [List.append_assoc, cut]
      exact leads.rest_eq
    · rw [← takeWhile_isWordChar_eq_iff wordChars, cut]
    · rw [Cursor.offset, before, byteLength_reverse]
  · rintro ⟨front, ⟨nonempty, wordChars, fresh, behind, cut, ended⟩, start⟩
    refine ⟨⟨front.reverse, span.chars ++ behind⟩, ⟨front, ?_, ?_⟩, ?_, nonempty, ?_⟩
    · rw [← List.append_assoc]
      exact cut
    · simp [Cursor.start]
    · rwa [List.head?_reverse]
    · rw [(takeWhile_isWordChar_eq_iff wordChars).mpr ended, Cursor.offset, byteLength_reverse,
        ← start]

/-- The words come from left to right, with something between them. -/
theorem pairwise_words (text : List Char) : (words text).Pairwise fun a b => a.stop < b.start := by
  apply (Cursor.pairwise_onward _).filterMap
  rintro cursor later ⟨chars, nonempty, leads⟩ a foundA b foundB
  obtain ⟨-, -, rfl⟩ := Cursor.word?_eq_some_iff.mp foundA
  obtain ⟨fresh, -, rfl⟩ := Cursor.word?_eq_some_iff.mp foundB
  -- The character right before the second word is one that the first word does not reach.
  obtain ⟨between, c, rfl⟩ := (List.eq_nil_or_concat' chars).resolve_left nonempty
  have notWord : isWordChar c = false := fresh c (by simp [leads.before_eq])
  have first : cursor.rest.takeWhile isWordChar <+: cursor.rest := List.takeWhile_prefix _
  have second : between ++ [c] <+: cursor.rest := ⟨later.rest, leads.rest_eq.symm⟩
  have apart : c ∉ cursor.rest.takeWhile isWordChar := fun member =>
    Bool.false_ne_true (notWord.symm.trans (List.mem_takeWhile_imp member))
  have short : cursor.rest.takeWhile isWordChar <+: between := by
    rcases List.prefix_or_prefix_of_prefix second first with whole | inside
    · exact absurd (whole.subset (by simp)) apart
    · rcases List.prefix_concat_iff.mp inside with whole | inside
      · exact absurd (whole ▸ by simp) apart
      · exact inside
  obtain ⟨more, cut⟩ := short
  have passed := leads.offset_eq
  have positive := c.utf8Size_pos
  simp only [Span.stop, ← cut, byteLength_append, byteLength_cons, byteLength_nil] at passed ⊢
  omega

end LineLint.Text
namespace LineLint.Rules.VariableNaming

open Text

/-- Whether a word consists of letters and digits of ASCII and begins with a small letter. -/
def isPlain (word : List Char) : Bool := word.all Char.isAlphanum && word.head?.any Char.isLower

theorem isPlain_iff {chars : List Char} : isPlain chars = true ↔
    ∃ first rest, chars = first :: rest ∧ first.isLower = true ∧
      ∀ c ∈ rest, c.isAlphanum = true := by
  simp only [isPlain, Bool.and_eq_true, List.all_eq_true]
  constructor
  · rintro ⟨alphanum, lower⟩
    cases chars with
    | nil => cases lower
    | cons first rest =>
      exact ⟨first, rest, rfl, lower, fun c member => alphanum c (.tail _ member)⟩
  · rintro ⟨first, rest, rfl, lower, alphanum⟩
    refine ⟨List.forall_mem_cons.mpr ⟨?_, alphanum⟩, lower⟩
    change (first.isUpper || first.isLower || first.isDigit) = true
    rw [lower, Bool.or_true, Bool.true_or]

theorem isCamelCase_eq_isPlain (name : List Char) : isCamelCase name = isPlain name := by
  rw [Bool.eq_iff_iff, isPlain_iff]
  exact Pattern.isMatch_wholeName_iff

theorem isWordChar_of_isPlain {chars : List Char} (plain : isPlain chars = true) :
    ∀ c ∈ chars, isWordChar c = true := by
  intro c member
  rw [isPlain, Bool.and_eq_true, List.all_eq_true] at plain
  exact isWordChar_of_isAlphanum (plain.1 c member)

/-- What the pattern takes is the whole word at a place, without regard to how much of it the
pattern tries first. -/
theorem mem_ends_word {progress reached : Progress} : reached ∈ word.ends progress ↔
    ∃ chars, progress.cursor.rest.takeWhile isWordChar = chars ∧ isPlain chars = true ∧
      (∀ c ∈ progress.cursor.before.head?, isWordChar c = false) ∧
      progress.cursor.Leads chars reached.cursor ∧ reached.group = progress.group := by
  simp only [word, Pattern.wordEdge, Pattern.mem_ends_seq, Pattern.mem_ends_one,
    Pattern.mem_ends_many, Pattern.mem_ends_assertion]
  constructor
  · rintro ⟨_, ⟨atStart, rfl⟩, behindFirst, ⟨first, lower, toFirst, kept⟩, _,
      ⟨rest, alphanum, toRest, same⟩, atEnd, rfl⟩
    have plain : isPlain ([first] ++ rest) = true :=
      isPlain_iff.mpr ⟨first, rest, rfl, lower, alphanum⟩
    have leads := toFirst.trans toRest
    have wordChars := isWordChar_of_isPlain plain
    obtain ⟨edge, otherEdge⟩ := Cursor.isWordEdge_iff leads (by simp) wordChars
    refine ⟨_, ?_, plain, edge.mp atStart, leads, same.trans kept⟩
    rw [leads.rest_eq, takeWhile_isWordChar_eq_iff wordChars]
    exact otherEdge.mp atEnd
  · rintro ⟨chars, taken, plain, fresh, leads, same⟩
    have wordChars := isWordChar_of_isPlain plain
    obtain ⟨first, rest, rfl, lower, alphanum⟩ := isPlain_iff.mp plain
    obtain ⟨edge, otherEdge⟩ := Cursor.isWordEdge_iff leads (by simp) wordChars
    obtain ⟨behindFirst, toFirst, toRest⟩ := Cursor.leads_append_iff.mp
      (show progress.cursor.Leads ([first] ++ rest) reached.cursor from leads)
    rw [leads.rest_eq, takeWhile_isWordChar_eq_iff wordChars] at taken
    exact ⟨progress, ⟨edge.mpr fresh, rfl⟩, ⟨behindFirst, progress.group⟩,
      ⟨first, lower, toFirst, rfl⟩, reached, ⟨rest, alphanum, toRest, same⟩, otherEdge.mpr taken,
      rfl⟩

theorem unambiguous_word : word.Unambiguous := by
  intro progress a memberA b memberB
  obtain ⟨_, rfl, _, _, leads, same⟩ := mem_ends_word.mp memberA
  obtain ⟨_, rfl, _, _, otherLeads, otherSame⟩ := mem_ends_word.mp memberB
  have sameCursor := leads.cursor_unique otherLeads
  have sameGroup := same.trans otherSame.symm
  obtain ⟨cursor, group⟩ := a
  obtain ⟨otherCursor, otherGroup⟩ := b
  simpa using ⟨sameCursor, sameGroup⟩

/-- Within a word, a word character stands before every place, so that no match begins there. -/
theorem apart_word : word.Apart := by
  intro cursor found fits front inside back frontTakes toInside backTakes toStop
  obtain ⟨chars, -, plain, -, leads, -⟩ :=
    mem_ends_word.mp (Pattern.mem_ends_of_matchAt? fits).2
  obtain ⟨earlier, c, rfl⟩ := (List.eq_nil_or_concat' front).resolve_left frontTakes
  have taken := leads.chars_unique (toInside.trans toStop)
  have wordChar : isWordChar c = true := isWordChar_of_isPlain plain c (by simp [taken])
  rw [Pattern.matchAt?_eq_none_iff, List.eq_nil_iff_forall_not_mem]
  intro reached member
  obtain ⟨-, -, -, fresh, -⟩ := mem_ends_word.mp member
  have notWord : isWordChar c = false := fresh c (by simp [toInside.before_eq])
  exact Bool.false_ne_true (notWord.symm.trans wordChar)

/-- From a place the pattern takes the word that starts there, if it is a plain one. -/
theorem map_whole_matchAt? (cursor : Cursor) :
    (word.matchAt? cursor).map Match.whole =
      cursor.word?.filter fun span => isPlain span.chars := by
  refine Option.ext fun span => ?_
  simp only [Option.map_eq_some_iff, Pattern.matchAt?_eq_some_iff unambiguous_word, mem_ends_word,
    Option.filter_eq_some_iff, Cursor.word?_eq_some_iff]
  constructor
  · rintro ⟨found, ⟨rfl, _, rfl, plain, fresh, leads, -⟩, rfl⟩
    obtain ⟨first, rest, nonempty, -⟩ := isPlain_iff.mp plain
    rw [Match.whole, leads.stretch_eq]
    exact ⟨⟨fresh, by simp [nonempty], rfl⟩, plain⟩
  · rintro ⟨⟨fresh, -, rfl⟩, plain⟩
    let chars := cursor.rest.takeWhile isWordChar
    let stop : Cursor := ⟨chars.reverse ++ cursor.before, cursor.rest.dropWhile isWordChar⟩
    have leads : cursor.Leads chars stop := ⟨List.takeWhile_append_dropWhile.symm, rfl⟩
    exact ⟨⟨cursor, stop, none⟩, ⟨rfl, chars, rfl, plain, fresh, leads, rfl⟩, leads.stretch_eq⟩

/-- No candidate is part of a longer word. -/
theorem candidates_eq_filter_words (text : List Char) :
    candidates text = (words text).filter fun span => isPlain span.chars := by
  rw [candidates, Pattern.scan_eq rfl apart_word, words, List.map_filterMap, List.filter_filterMap]
  exact congrArg (List.filterMap · _) (funext map_whole_matchAt?)

/-- The candidates are the words of the text that consist of letters and digits of ASCII and begin
with a small letter, in the order of the text. The words are its maximal runs of word characters,
and something stands between any two of them. So a candidate shares nothing with any word but itself. -/
theorem candidates_are_plain_words (text : List Char) :
    candidates text = (words text).filter (fun span => isPlain span.chars) ∧
      (words text).Pairwise (fun a b => a.stop < b.start) ∧
      (∀ span, span ∈ words text ↔
        ∃ front, WordAt text front span.chars ∧ span.start = byteLength front) ∧
      ∀ span ∈ candidates text, ∀ other ∈ words text,
        span = other ∨ span.stop < other.start ∨ other.stop < span.start := by
  have selected := candidates_eq_filter_words text
  have ordered := pairwise_words text
  have apart : ∀ a ∈ words text, ∀ b ∈ words text, a = b ∨ a.stop < b.start ∨ b.stop < a.start :=
    List.Pairwise.forall_of_forall_of_flip (fun a _ => .inl rfl)
      (ordered.imp fun before => .inr (.inl before)) (ordered.imp fun before => .inr (.inr before))
  refine ⟨selected, ordered, fun _ => mem_words_iff, ?_⟩
  intro span candidate other isWord
  rw [selected] at candidate
  exact apart span (List.mem_of_mem_filter candidate) other isWord

/-- No part of a word with an accent or an underscore is a candidate. -/
example : candidates "éab a_b x2".toList = [⟨9, ['x', '2']⟩] := by cbv

end LineLint.Rules.VariableNaming
