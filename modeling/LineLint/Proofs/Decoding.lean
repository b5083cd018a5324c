import LineLint.Disk
import LineLint.Proofs.Utf8
import LineLint.SourceLine
import Mathlib.Data.List.Basic

/-! # Decoding files

A file is decoded whatever its octets are, and decoding never moves a line: line for line the text
depends on the octets of that line alone, but for the byte order mark in front of the first one. A
file that holds the mark and nothing else is the one case where a line of octets is no line of the
text. What was encoded as UTF-8, with a mark or without, is decoded to itself.
-/

namespace LineLint

namespace Text

/-- A line without the terminator at its end, if there is one. -/
def withoutTerminator (line : List Char) : List Char :=
  match line.reverse with
  | '\n' :: reversed => closeLine reversed
  | _ => line

theorem withoutTerminator_feed (front : List Char) :
    withoutTerminator (front ++ ['\n']) = closeLine front.reverse := by
  simp [withoutTerminator]

theorem withoutTerminator_of_no_feed {line : List Char} (noFeed : '\n' ∉ line) :
    withoutTerminator line = line := by
  unfold withoutTerminator
  split
  · rename_i reversed
    have member : '\n' ∈ line.reverse := by simp [reversed]
    exact absurd (List.mem_reverse.mp member) noFeed
  · rfl

/-- The lines of a file in octets, each with its line feed, which only the last one may lack. -/
def octetLines : List UInt8 → List (List UInt8)
  | [] => []
  | octet :: rest =>
    if octet = 0x0A then [octet] :: octetLines rest
    else
      match octetLines rest with
      | [] => [[octet]]
      | line :: lines => (octet :: line) :: lines

theorem octetLines_ne_nil {octets : List UInt8} (some : octets ≠ []) : octetLines octets ≠ [] := by
  cases octets with
  | nil => contradiction
  | cons octet rest =>
    simp only [octetLines]
    split
    · simp
    · split <;> simp

theorem flatten_octetLines (octets : List UInt8) : (octetLines octets).flatten = octets := by
  induction octets with
  | nil => rfl
  | cons octet rest ih =>
    simp only [octetLines]
    split
    · simp [ih]
    · split
      · rename_i none
        rw [none] at ih
        simp [← ih]
      · rename_i cut
        rw [cut] at ih
        simpa using ih

/-- Octets in front of a line belong to that line. -/
theorem octetLines_append {front rest line : List UInt8} {lines : List (List UInt8)}
    (noFeed : 0x0A ∉ front) (cut : octetLines rest = line :: lines) :
    octetLines (front ++ rest) = (front ++ line) :: lines := by
  induction front with
  | nil => exact cut
  | cons octet front ih =>
    have other : octet ≠ 0x0A := fun same => noFeed (same ▸ List.mem_cons_self)
    have behind : 0x0A ∉ front := fun member => noFeed (List.mem_cons_of_mem octet member)
    rw [List.cons_append, octetLines, if_neg other, ih behind]
    rfl

theorem octetLines_feed {front : List UInt8} (noFeed : 0x0A ∉ front) (rest : List UInt8) :
    octetLines (front ++ 0x0A :: rest) = (front ++ [0x0A]) :: octetLines rest :=
  octetLines_append noFeed rfl

theorem octetLines_eq_singleton {octets : List UInt8} (noFeed : 0x0A ∉ octets)
    (nonempty : octets ≠ []) : octetLines octets = [octets] := by
  induction octets with
  | nil => contradiction
  | cons octet rest ih =>
    have other : octet ≠ 0x0A := fun same => noFeed (same ▸ List.mem_cons_self)
    have behind : 0x0A ∉ rest := fun member => noFeed (List.mem_cons_of_mem octet member)
    rw [octetLines, if_neg other]
    by_cases last : rest = []
    · rw [last]
      rfl
    · rw [ih behind last]

namespace Utf8

theorem feed_mem_decodeLossy {octets : List UInt8} (member : '\n' ∈ decodeLossy octets) :
    0x0A ∈ octets := by
  have kept : '\n' ∈ (decodeLossy octets).filter fun c => c.toNat < 0x80 :=
    List.mem_filter.mpr ⟨member, by decide⟩
  rw [decodeLossy, filter_decodeLossyFrom (by simp)] at kept
  obtain ⟨octet, ascii, same⟩ := List.mem_map.mp kept
  obtain ⟨inside, ascii⟩ := List.mem_filter.mp ascii
  have value := toNat_ofNat (.inl (Nat.lt_trans (of_decide_eq_true ascii) (by decide)))
  rw [same] at value
  have feed : octet = 0x0A := UInt8.toNat_inj.mp value.symm
  exact feed ▸ inside

/-- A line feed is an octet of its own and the other octets give something, so that the text has the
lines that the octets have. -/
theorem lines_decodeLossy (octets : List UInt8) :
    lines (decodeLossy octets) =
      (octetLines octets).map fun line => withoutTerminator (decodeLossy line) := by
  induction size : octets.length using Nat.strongRecOn generalizing octets with
  | ind size ih =>
    by_cases feed : 0x0A ∈ octets
    · obtain ⟨front, rest, rfl, noFeed⟩ := List.eq_append_cons_of_mem feed
      have later := ih rest.length (by simp at size; omega) rest rfl
      have cut : ∀ rest, decodeLossy (front ++ 0x0A :: rest) =
          decodeLossy front ++ '\n' :: decodeLossy rest :=
        decodeLossy_append_ascii (by decide) front
      rw [cut, lines_feed (mt feed_mem_decodeLossy noFeed), octetLines_feed noFeed, List.map_cons,
        cut, later]
      congr 1
      exact (withoutTerminator_feed _).symm
    · by_cases empty : octets = []
      · rw [empty]
        rfl
      · have noFeed := mt feed_mem_decodeLossy feed
        have nonempty : decodeLossy octets ≠ [] :=
          fun nothing => empty (eq_nil_of_decodeLossyFrom nothing).2
        rw [octetLines_eq_singleton feed empty, List.map_singleton,
          lines_eq_singleton noFeed nonempty, withoutTerminator_of_no_feed noFeed]

/-- The byte order mark is the encoding of a character. -/
theorem byteOrderMark_eq : byteOrderMark = encode ['\uFEFF'] := by decide

theorem dropMark_append (octets : List UInt8) : dropMark (byteOrderMark ++ octets) = octets := by
  simp [dropMark, byteOrderMark]

theorem dropMark_of_unmarked {octets : List UInt8} (other : ¬ byteOrderMark <+: octets) :
    dropMark octets = octets := by
  rw [dropMark, if_neg (by simpa using other)]

/-- The mark holds no line feed, so that a line feed does not change whether it is there. -/
theorem dropMark_feed (front rest : List UInt8) :
    dropMark (front ++ 0x0A :: rest) = dropMark front ++ 0x0A :: rest := by
  match front with
  | [] => simp [dropMark, byteOrderMark]
  | [_] => simp [dropMark, byteOrderMark]
  | [_, _] => simp [dropMark, byteOrderMark]
  | a :: b :: c :: front =>
    simp only [dropMark, byteOrderMark, List.cons_append, List.isPrefixOf_cons_cons,
      List.isPrefixOf_nil_left]
    split <;> rfl

/-- The mark belongs to the first line, if there is one without it. -/
theorem octetLines_dropMark {octets : List UInt8} (some : octets ≠ [])
    (more : octets ≠ byteOrderMark) :
    ∃ first later, octetLines octets = first :: later ∧
      octetLines (dropMark octets) = dropMark first :: later := by
  by_cases marked : byteOrderMark <+: octets
  · obtain ⟨rest, rfl⟩ := marked
    have nonempty : rest ≠ [] := by
      rintro rfl
      exact more (List.append_nil _)
    obtain ⟨first, later, cut⟩ := List.exists_cons_of_ne_nil (octetLines_ne_nil nonempty)
    refine ⟨byteOrderMark ++ first, later, octetLines_append (by decide) cut, ?_⟩
    rw [dropMark_append, dropMark_append, cut]
  · obtain ⟨first, later, cut⟩ := List.exists_cons_of_ne_nil (octetLines_ne_nil some)
    have whole := flatten_octetLines octets
    rw [cut, List.flatten_cons] at whole
    have unmarked : ¬ byteOrderMark <+: first := by
      intro marked'
      exact marked (whole ▸ marked'.trans (List.prefix_append _ _))
    refine ⟨first, later, cut, ?_⟩
    rw [dropMark_of_unmarked marked, dropMark_of_unmarked unmarked, cut]

end Utf8

end Text

namespace Discovery

open Text Text.Utf8

/-- One mark is dropped and only one, so the text may begin with another. -/
theorem decode_mark_encode (text : String) :
    decode (byteOrderMark ++ encode text.toList) = text := by
  rw [decode, dropMark_append, decodeLossy_encode, String.ofList_toList]

/-- Text that does not begin with a mark is read back from its own encoding. -/
theorem decode_encode {text : String} (unmarked : text.toList.head? ≠ some '\uFEFF') :
    decode (encode text.toList) = text := by
  have kept : ¬ byteOrderMark <+: encode text.toList := by
    rintro ⟨rest, same⟩
    have undone := decodeLossy_encode text.toList
    rw [← same, byteOrderMark_eq, decodeLossy_encode_append] at undone
    exact unmarked (congrArg List.head? undone).symm
  rw [decode, dropMark_of_unmarked kept, decodeLossy_encode, String.ofList_toList]

/-- A line feed cannot be part of a broken sequence, so decoding splits at it. -/
theorem decode_feed (front rest : List UInt8) :
    decode (front ++ 0x0A :: rest) =
      decode front ++ "\n" ++ String.ofList (decodeLossy rest) := by
  rw [decode, dropMark_feed, decodeLossy_append_ascii (by decide), ← String.toList_inj]
  simp [decode]

/-- ASCII passes through decoding untouched, whatever stands between. -/
theorem filter_decode (octets : List UInt8) :
    (decode octets).toList.filter (fun c => c.toNat < 0x80) =
      (octets.filter fun octet => octet.toNat < 0x80).map fun octet => Char.ofNat octet.toNat := by
  rw [decode, String.toList_ofList, decodeLossy, filter_decodeLossyFrom (by simp)]
  congr 1
  by_cases marked : byteOrderMark <+: octets
  · obtain ⟨rest, rfl⟩ := marked
    rw [dropMark_append, List.filter_append]
    rfl
  · rw [dropMark_of_unmarked marked]

/-- The text of a line by its octets; the first line of a file may have the mark. -/
def lineText (octets : List UInt8) (number : Nat) : String :=
  String.ofList (withoutTerminator
    (if number = 1 then (decode octets).toList else decodeLossy octets))

theorem ofContent_decode (file : String) {octets : List UInt8} (more : octets ≠ byteOrderMark) :
    SourceLine.ofContent file (decode octets) =
      (octetLines octets).mapIdx fun i line => ⟨file, i + 1, lineText line (i + 1)⟩ := by
  by_cases empty : octets = []
  · rw [empty]; rfl
  obtain ⟨first, later, cut, unmarked⟩ := octetLines_dropMark empty more
  rw [SourceLine.ofContent, decode, String.toList_ofList, lines_decodeLossy, unmarked, cut,
    SourceLine.ofTexts_eq_mapIdx]
  simp only [List.map_cons, List.mapIdx_cons, lineText, decode, String.toList_ofList, if_true]
  congr 1
  apply List.ext_getElem?
  intro i
  simp [List.getElem?_mapIdx, Function.comp_def]

end Discovery

/-- Not every file has as many lines of text as it has lines of octets: the mark alone is a line
that is not seen. -/
theorem mark_alone_has_no_line : ¬ ∀ octets : List UInt8,
    (SourceLine.ofContent "a" (Discovery.decode octets)).length =
      (Text.octetLines octets).length := by
  intro every
  exact absurd (every Text.Utf8.byteOrderMark) (by decide)

/-- A line feed cuts decoding in two, and the characters of ASCII are the octets of ASCII. So,
unless a file holds the byte order mark alone and has no line, its lines are those of its octets,
each with a text that comes from its own octets. What was encoded is decoded to itself. -/
theorem decoding_keeps_lines (file : String) :
    (∀ front rest : List UInt8,
      Discovery.decode (front ++ [0x0A] ++ rest) =
        Discovery.decode front ++ "\n" ++ String.ofList (Text.Utf8.decodeLossy rest)) ∧
    (∀ octets : List UInt8,
      (Discovery.decode octets).toList.filter (fun c => c.toNat < 0x80) =
        (octets.filter fun octet => octet.toNat < 0x80).map fun octet => Char.ofNat octet.toNat) ∧
    (∀ octets : List UInt8, octets ≠ Text.Utf8.byteOrderMark →
      SourceLine.ofContent file (Discovery.decode octets) =
        (Text.octetLines octets).mapIdx fun i line =>
          ⟨file, i + 1, Discovery.lineText line (i + 1)⟩) ∧
    SourceLine.ofContent file (Discovery.decode Text.Utf8.byteOrderMark) = [] ∧
    ∀ text : String,
      Discovery.decode (Text.Utf8.byteOrderMark ++ Text.Utf8.encode text.toList) = text ∧
        (text.toList.head? ≠ some '\uFEFF' →
          Discovery.decode (Text.Utf8.encode text.toList) = text) := by
  refine ⟨?_, Discovery.filter_decode, ?_, rfl, ?_⟩
  · intro front rest
    rw [List.append_assoc]
    exact Discovery.decode_feed front rest
  · intro octets more
    exact Discovery.ofContent_decode file more
  · intro text
    exact ⟨Discovery.decode_mark_encode text, Discovery.decode_encode⟩

/-- The second line begins a character that the file does not end, and the first one has a mark and
an octet that begins none. -/
theorem decoding_keeps_broken_lines :
    let octets : List UInt8 := [0xEF, 0xBB, 0xBF, 0x61, 0xFF, 0x0D, 0x0A, 0xE2, 0x82]
    octets ≠ Text.Utf8.byteOrderMark ∧
      SourceLine.ofContent "a" (Discovery.decode octets) =
        [⟨"a", 1, "a\uFFFD"⟩, ⟨"a", 2, "\uFFFD"⟩] ∧
      "é".toList.head? ≠ some '\uFEFF' ∧
      Discovery.decode (Text.Utf8.encode "é".toList) = "é" := by
  intro octets
  obtain ⟨_, _, lines, _, texts⟩ := decoding_keeps_lines "a"
  refine ⟨by decide, ?_, by decide, (texts "é").2 (by decide)⟩
  exact (lines octets (by decide)).trans (by decide)

end LineLint
