import LineLint.Proofs.Columns
import LineLint.SourceLine
import Mathlib.Data.Nat.Count

/-! # Byte offsets of a line

An offset between two characters of a line, or at an end of it, is one from which the line can be
read on. There the column counts the characters that end by the offset, and at any other offset it
counts all of them.
-/

namespace LineLint

namespace Text

theorem byteLength_eq_utf8ByteSize (text : List Char) :
    byteLength text = (String.ofList text).utf8ByteSize := by
  induction text with
  | nil => rfl
  | cons c rest ih =>
    rw [byteLength_cons, ih, ← List.singleton_append, String.ofList_append,
      String.utf8ByteSize_append, ← String.singleton_eq_ofList, String.utf8ByteSize_singleton]

/-- Characters are counted up to the end of a beginning of the text. -/
theorem charsBefore?_eq_some_iff {text : List Char} {offset n : Nat} :
    charsBefore? text offset = some n ↔
      ∃ front back, text = front ++ back ∧ byteLength front = offset ∧ front.length = n := by
  constructor
  · intro counted
    fun_induction charsBefore? text offset generalizing n with
    | case1 text => exact ⟨[], text, rfl, rfl, Option.some.inj counted⟩
    | case2 => cases counted
    | case3 c rest offset fits ih =>
      obtain ⟨m, inner, rfl⟩ := Option.map_eq_some_iff.mp counted
      obtain ⟨front, back, rfl, length, rfl⟩ := ih inner
      refine ⟨c :: front, back, rfl, ?_, rfl⟩
      rw [byteLength_cons]
      omega
    | case4 => cases counted
  · rintro ⟨front, back, rfl, rfl, rfl⟩
    exact charsBefore?_byteLength front back

end Text

namespace SourceLine

open Text

variable {line : SourceLine} {offset further : Nat}

/-- Whether a byte offset is an end of the line or lies between two of its characters. -/
def IsBoundary (line : SourceLine) (offset : Nat) : Prop :=
  (⟨offset⟩ : String.Pos.Raw).IsValid line.text

/-- The number of characters of the line that end at a byte offset or before it. -/
def endedBy (line : SourceLine) (offset : Nat) : Nat :=
  Nat.count (fun i => (String.ofList (line.text.toList.take (i + 1))).utf8ByteSize ≤ offset)
    line.text.length

instance (line : SourceLine) (offset : Nat) : Decidable (line.IsBoundary offset) :=
  inferInstanceAs (Decidable ((⟨offset⟩ : String.Pos.Raw).IsValid line.text))

theorem isBoundary_iff :
    line.IsBoundary offset ↔
      ∃ front back, line.text.toList = front ++ back ∧ byteLength front = offset := by
  rw [IsBoundary, String.Pos.Raw.isValid_iff_exists_append]
  constructor
  · rintro ⟨front, back, text, ends⟩
    refine ⟨front.toList, back.toList, by rw [text, String.toList_append], ?_⟩
    rw [byteLength_eq_utf8ByteSize, String.ofList_toList]
    exact (congrArg String.Pos.Raw.byteIdx ends).symm
  · rintro ⟨front, back, text, ends⟩
    refine ⟨String.ofList front, String.ofList back, ?_, ?_⟩
    · rw [← String.ofList_append, ← text, String.ofList_toList]
    · rw [← ends, byteLength_eq_utf8ByteSize]
      rfl

theorem isBoundary_zero (line : SourceLine) : line.IsBoundary 0 := String.Pos.Raw.isValid_zero

theorem isBoundary_utf8ByteSize (line : SourceLine) : line.IsBoundary line.text.utf8ByteSize :=
  String.Pos.Raw.isValid_rawEndPos

/-- The characters that end by the end of a beginning of the line are those of that beginning. -/
theorem endedBy_byteLength {front back : List Char} (text : line.text.toList = front ++ back) :
    line.endedBy (byteLength front) = front.length := by
  have ended : ∀ i < line.text.length,
      (String.ofList (line.text.toList.take (i + 1))).utf8ByteSize ≤ byteLength front ↔
        i < front.length := by
    intro i within
    have before : front <+: line.text.toList := ⟨back, text.symm⟩
    have longer := byteLength_lt_iff before (List.take_prefix (i + 1) line.text.toList)
    rw [List.length_take, String.length_toList] at longer
    rw [← byteLength_eq_utf8ByteSize]
    omega
  have length : line.text.length = front.length + back.length := by
    rw [← String.length_toList, text, List.length_append]
  rw [endedBy, length, Nat.count_add, Nat.count_iff_forall.mpr, Nat.count_iff_forall_not.mpr]
  · exact Nat.add_zero _
  · intro i within
    rw [ended _ (by omega)]
    omega
  · intro i within
    exact (ended i (by omega)).mpr within

theorem columnAt_of_isBoundary (boundary : line.IsBoundary offset) :
    line.columnAt offset = line.endedBy offset + 1 := by
  obtain ⟨front, back, text, rfl⟩ := isBoundary_iff.mp boundary
  rw [endedBy_byteLength text, columnAt, text, columnAt_byteLength]

/-- The characters from a column on are the bytes from its offset on. -/
theorem drop_of_isBoundary (boundary : line.IsBoundary offset) :
    (String.ofList (line.text.toList.drop (line.columnAt offset - 1))).toByteArray =
      line.text.toByteArray.extract offset line.text.utf8ByteSize := by
  obtain ⟨front, back, text, rfl⟩ := isBoundary_iff.mp boundary
  have whole : line.text = String.ofList front ++ String.ofList back := by
    rw [← String.ofList_append, ← text, String.ofList_toList]
  have size : line.text.utf8ByteSize =
      (String.ofList front).toByteArray.size + (String.ofList back).toByteArray.size := by
    rw [whole, String.utf8ByteSize_append, String.size_toByteArray, String.size_toByteArray]
  rw [size, columnAt, text, columnAt_byteLength, Nat.add_sub_cancel, List.drop_left, whole,
    String.toByteArray_append, byteLength_eq_utf8ByteSize, ← String.size_toByteArray]
  exact (ByteArray.extract_append_eq_right rfl rfl).symm

theorem columnAt_lt_of_isBoundary (boundary : line.IsBoundary offset)
    (other : line.IsBoundary further) (later : offset < further) :
    line.columnAt offset < line.columnAt further := by
  obtain ⟨front, back, text, rfl⟩ := isBoundary_iff.mp boundary
  obtain ⟨longer, behind, same, rfl⟩ := isBoundary_iff.mp other
  exact columnAt_lt_columnAt ⟨back, text.symm⟩ ⟨behind, same.symm⟩ later

/-- Inside a character, or past the line, the column is the one behind the line. -/
theorem columnAt_of_not_isBoundary (inside : ¬ line.IsBoundary offset) :
    line.columnAt offset = line.text.length + 1 := by
  have uncounted : charsBefore? line.text.toList offset = none := by
    rw [Option.eq_none_iff_forall_ne_some]
    intro n counted
    obtain ⟨front, back, text, ends, _⟩ := charsBefore?_eq_some_iff.mp counted
    exact inside (isBoundary_iff.mpr ⟨front, back, text, ends⟩)
  rw [columnAt, Text.columnAt, uncounted, Option.getD_none, String.length_toList]

theorem columnAt_le (line : SourceLine) (offset : Nat) :
    line.columnAt offset ≤ line.text.length + 1 := by
  by_cases boundary : line.IsBoundary offset
  · rw [columnAt_of_isBoundary boundary]
    exact Nat.succ_le_succ (Nat.count_le _)
  · exact Nat.le_of_eq (columnAt_of_not_isBoundary boundary)

/-- The column of a byte offset counts the characters that end by it: it grows along the boundaries
of the line, from one to one more than the length, and the text behind the characters that it counts
is the text from the offset on. An offset inside a character or past the end counts them all. -/
theorem columns_count_characters (line : SourceLine) :
    line.IsBoundary 0 ∧ line.IsBoundary line.text.utf8ByteSize ∧
      (∀ offset, line.IsBoundary offset →
        line.columnAt offset = line.endedBy offset + 1 ∧
          (String.ofList (line.text.toList.drop (line.columnAt offset - 1))).toByteArray =
            line.text.toByteArray.extract offset line.text.utf8ByteSize) ∧
      (∀ offset further, line.IsBoundary offset → line.IsBoundary further → offset < further →
        line.columnAt offset < line.columnAt further) ∧
      (∀ offset, ¬ line.IsBoundary offset → line.columnAt offset = line.text.length + 1) ∧
      ∀ offset, 1 ≤ line.columnAt offset ∧ line.columnAt offset ≤ line.text.length + 1 := by
  refine ⟨line.isBoundary_zero, line.isBoundary_utf8ByteSize, ?_, ?_, ?_, ?_⟩
  · intro offset boundary
    exact ⟨columnAt_of_isBoundary boundary, drop_of_isBoundary boundary⟩
  · intro offset further boundary other later
    exact columnAt_lt_of_isBoundary boundary other later
  · intro offset inside
    exact columnAt_of_not_isBoundary inside
  · intro offset
    exact ⟨Nat.succ_le_succ (Nat.zero_le _), line.columnAt_le offset⟩

/-- A blank and a character of two bytes: the offset behind it has a greater column than the one in
front of it, the offset inside of it has the column that is past the end. -/
theorem columns_count_characters_behind_accent :
    let line : SourceLine := ⟨"a.cs", 1, " é("⟩
    line.IsBoundary 1 ∧ line.IsBoundary 3 ∧ ¬ line.IsBoundary 2 ∧ ¬ line.IsBoundary 5 ∧
      line.columnAt 3 = line.endedBy 3 + 1 ∧ line.columnAt 1 < line.columnAt 3 ∧
      line.columnAt 2 = line.text.length + 1 ∧ line.columnAt 5 = line.text.length + 1 := by
  intro line
  have blank : line.IsBoundary 1 := by decide
  have accent : line.IsBoundary 3 := by decide
  have inside : ¬ line.IsBoundary 2 := by decide
  have past : ¬ line.IsBoundary 5 := by decide
  obtain ⟨_, _, counts, grows, elsewhere, _⟩ := columns_count_characters line
  exact ⟨blank, accent, inside, past, (counts 3 accent).1, grows 1 3 blank accent (by decide),
    elsewhere 2 inside, elsewhere 5 past⟩

end SourceLine

end LineLint
