import LineLint.Proofs.BuiltIn
import LineLint.Text.Split
import Mathlib.Data.Nat.ModEq

/-! # Widths of indentations

What the indentation rule says of a line depends on the number of blanks in front of it alone, and
on that only up to multiples of the indent unit.
-/

namespace LineLint.Rules.Indentation

open Text

/-- Whether a text begins with these blanks and goes on with something else. -/
structure Indents (text blanks rest : List Char) : Prop where
  text_eq : text = blanks ++ rest
  blank : ∀ c ∈ blanks, isBlank c = true
  stops : ∀ c ∈ rest.head?, isBlank c = false

variable {unit multiple : IndentUnit} {severity : Severity} {line : SourceLine}
  {text blanks rest : List Char}

theorem Indents.width_eq (indents : Indents text blanks rest) : width text = blanks.length := by
  rw [Indentation.width_eq, indents.text_eq, (takeWhile_append_stop indents.blank indents.stops).1]

/-- Only the remainder of the width counts. -/
theorem isViolation_eq_of_modEq {text other : List Char}
    (same : width text ≡ width other [MOD unit.size]) :
    isViolation unit text = isViolation unit other := by
  rw [isViolation, isViolation, same]

/-- What is uneven for a unit is uneven for its multiples. -/
theorem isViolation_of_dvd (divides : unit.size ∣ multiple.size)
    (violation : isViolation unit text = true) : isViolation multiple text = true := by
  rw [isViolation_iff] at violation ⊢
  exact fun even => violation (divides.trans even)

/-- The rule finds what `isViolation` asks for. -/
theorem check_eq (unit : IndentUnit) (severity : Severity) (line : SourceLine) :
    check unit severity line =
      if isViolation unit line.text.toList then
        [⟨.indentation, severity, ⟨line.file, line.number, 1⟩, line.text,
          message (width line.text.toList) unit⟩]
      else [] := by
  simp only [check, isViolation, bne_iff_ne, ite_not]

theorem check_eq_nil_iff :
    check unit severity line = [] ↔ isViolation unit line.text.toList = false := by
  rw [check_eq]
  cases isViolation unit line.text.toList <;> simp

/-- A violation is reported by one finding, whose message names the width and the unit. -/
theorem exists_check_eq_iff :
    (∃ f, check unit severity line = [f] ∧ f.message = message (width line.text.toList) unit) ↔
      isViolation unit line.text.toList = true := by
  rw [check_eq]
  cases isViolation unit line.text.toList <;> simp

/-- What the rule says of a line is settled by the number of blanks in front of it: it finds
something, one thing that names the number and the unit, where the unit does not divide it. So it
says the same of lines whose numbers differ by multiples of the unit, whatever follows the blanks,
and what it finds it finds as well for each multiple of the unit. -/
theorem width_decides_indentation (unit : IndentUnit) (severity : Severity)
    (indents : Indents line.text.toList blanks rest) :
    width line.text.toList = blanks.length ∧
      (isViolation unit line.text.toList = true ↔ ¬ unit.size ∣ blanks.length) ∧
      (isViolation unit line.text.toList = true ↔
        ∃ f, check unit severity line = [f] ∧
          f.message = "indentation of " ++ toString blanks.length ++
            " character(s) is not a multiple of " ++ toString unit.size) ∧
      (isViolation unit line.text.toList = false ↔ check unit severity line = []) ∧
      (∀ (other : SourceLine) (otherBlanks otherRest : List Char),
        Indents other.text.toList otherBlanks otherRest →
          otherBlanks.length ≡ blanks.length [MOD unit.size] →
            isViolation unit other.text.toList = isViolation unit line.text.toList ∧
              (check unit severity other = [] ↔ check unit severity line = [])) ∧
      ∀ multiple : IndentUnit, unit.size ∣ multiple.size →
        isViolation unit line.text.toList = true →
          isViolation multiple line.text.toList = true ∧ check multiple severity line ≠ [] := by
  have width := indents.width_eq
  refine ⟨width, ?_, ?_, check_eq_nil_iff.symm, ?_, ?_⟩
  · rw [isViolation_iff, width]
  · have found := @exists_check_eq_iff unit severity line
    rw [width] at found
    exact found.symm
  · intro other otherBlanks otherRest otherIndents same
    have alike : isViolation unit other.text.toList = isViolation unit line.text.toList := by
      apply isViolation_eq_of_modEq
      rw [otherIndents.width_eq, width]
      exact same
    exact ⟨alike, by rw [check_eq_nil_iff, check_eq_nil_iff, alike]⟩
  · intro multiple divides violation
    have uneven := isViolation_of_dvd divides violation
    refine ⟨uneven, fun none => ?_⟩
    rw [check_eq_nil_iff.mp none] at uneven
    cases uneven

/-- Three blanks of one, two and three bytes, against a single one in front of other text and
against the sixfold unit. -/
theorem width_decides_indentation_of_wide_blanks :
    let unit : IndentUnit := ⟨2, by decide⟩
    let multiple : IndentUnit := ⟨12, by decide⟩
    let line : SourceLine := ⟨"a.cs", 1, "\t\u00a0\u3000"⟩
    let other : SourceLine := ⟨"b.cs", 7, " f("⟩
    Indents line.text.toList ['\t', '\u00a0', '\u3000'] [] ∧
      Indents other.text.toList [' '] ['f', '('] ∧
      width line.text.toList = 3 ∧ 1 ≡ 3 [MOD unit.size] ∧ unit.size ∣ multiple.size ∧
      isViolation unit line.text.toList = true ∧
      isViolation unit other.text.toList = isViolation unit line.text.toList ∧
      isViolation multiple line.text.toList = true := by
  intro unit multiple line other
  have indents : Indents line.text.toList ['\t', '\u00a0', '\u3000'] [] :=
    ⟨by decide, List.all_eq_true.mp (by decide), by simp⟩
  have otherIndents : Indents other.text.toList [' '] ['f', '('] :=
    ⟨by decide, List.all_eq_true.mp (by decide), by rintro c ⟨⟩; decide⟩
  have same : 1 ≡ 3 [MOD unit.size] := by decide
  have divides : unit.size ∣ multiple.size := by decide
  obtain ⟨width, uneven, _, _, alike, wider⟩ := width_decides_indentation unit .error indents
  have violation : isViolation unit line.text.toList = true := uneven.mpr (by decide)
  exact ⟨indents, otherIndents, width, same, divides, violation,
    (alike other [' '] ['f', '('] otherIndents same).1, (wider multiple divides violation).1⟩

end LineLint.Rules.Indentation
