import LineLint.Proofs.Figures
import LineLint.Proofs.PrintedLines

/-! # The text report adds up

The text report comes in blocks, one for each file with findings, and ends with a line of figures
that are not counted from the blocks. They agree with what its lines show all the same, whatever the
texts of findings and the names of files look like: no text begins a line, so that a line is told by
the words in front of it. Only a line feed in a text could make a line of its own.
-/

namespace LineLint

def begins (words line : String) : Bool := words.toList.isPrefixOf line.toList

section Begins

variable {words line front : String} {c d : Char}

theorem begins_append (words rest : String) : begins words (words ++ rest) = true := by
  simp [begins, String.toList_append, List.isPrefixOf_iff_prefix]

/-- What begins with another character does not begin with the words. -/
theorem begins_eq_false (first : words.toList.head? = some c)
    (other : line.toList.head? ≠ some c) : begins words line = false := by
  rw [Bool.eq_false_iff, begins, ne_eq, List.isPrefixOf_iff_prefix]
  rintro ⟨rest, whole⟩
  rw [← whole, List.head?_append, first] at other
  exact other rfl

theorem head?_append (first : front.toList.head? = some c) (back : String) :
    (front ++ back).toList.head? = some c := by
  rw [String.toList_append, List.head?_append, first]
  rfl

/-- None of some lines begins with words, if these begin with another character. -/
theorem filter_begins_eq_nil {lines : List String} (first : words.toList.head? = some c)
    (other : ∀ line ∈ lines, line.toList.head? ≠ some c) : lines.filter (begins words) = [] := by
  rw [List.filter_eq_nil_iff]
  intro line member
  rw [begins_eq_false first (other line member)]
  exact Bool.false_ne_true

end Begins

/-- The blocks among lines: each heading with the lines about issues that follow it. -/
def blocksOf : List String → List (String × List String)
  | [] => []
  | line :: rest =>
    if begins "Issues in file: " line then
      (line, rest.takeWhile (begins "  Issue ")) :: blocksOf rest
    else blocksOf rest

theorem blocksOf_append {front : List String}
    (none : ∀ line ∈ front, begins "Issues in file: " line = false) (back : List String) :
    blocksOf (front ++ back) = blocksOf back := by
  induction front with
  | nil => rfl
  | cons line rest ih =>
    obtain ⟨first, none⟩ := List.forall_mem_cons.mp none
    rw [List.cons_append, blocksOf, if_neg (ne_true_of_eq_false first), ih none]

namespace Report

variable (report : Report)

/-- The line in front of a block. -/
def heading : String := "Issues in file: " ++ report.file

/-- The lines of a block, with numbers from one on. -/
def numbered : List String :=
  report.findings.mapIdx fun i f => "  Issue " ++ toString (i + 1) ++ " - " ++ f.describe

theorem lines_eq : report.lines = report.heading :: (report.numbered ++ [""]) := by
  rw [numbered, List.mapIdx_eq_zipIdx_map, lines, List.zipIdx_eq_map_add, List.map_map]
  simp only [Function.comp_def, Nat.add_comm 1]
  rfl

theorem length_numbered : report.numbered.length = report.issueCount := List.length_mapIdx

theorem begins_of_mem_numbered {line : String} (member : line ∈ report.numbered) :
    begins "  Issue " line = true := by
  obtain ⟨i, _, rfl⟩ := List.mem_mapIdx.mp member
  rw [String.append_assoc, String.append_assoc]
  exact begins_append _ _

theorem head?_of_mem_numbered {line : String} (member : line ∈ report.numbered) :
    line.toList.head? = some ' ' := by
  obtain ⟨i, _, rfl⟩ := List.mem_mapIdx.mp member
  exact head?_append (head?_append (head?_append rfl _) _) _

theorem begins_heading : begins "Issues in file: " report.heading = true := begins_append _ _

theorem head?_heading : report.heading.toList.head? = some 'I' := head?_append rfl _

/-- The lines behind the heading of a block are no headings. -/
theorem begins_of_mem_tail {line : String} (member : line ∈ report.numbered ++ [""]) :
    begins "Issues in file: " line = false := by
  refine begins_eq_false (c := 'I') rfl ?_
  rcases List.mem_append.mp member with numbered | blank
  · rw [report.head?_of_mem_numbered numbered]
    decide
  · rw [List.mem_singleton.mp blank]
    decide

theorem filter_heading_lines :
    report.lines.filter (begins "Issues in file: ") = [report.heading] := by
  rw [lines_eq, List.filter_cons_of_pos report.begins_heading, List.cons.injEq]
  exact ⟨rfl, List.filter_eq_nil_iff.mpr fun line member =>
    Bool.eq_false_iff.mp (report.begins_of_mem_tail member)⟩

/-- Neither a heading nor a gap looks like a numbered issue. -/
theorem filter_issue_lines : report.lines.filter (begins "  Issue ") = report.numbered := by
  have heading : begins "  Issue " report.heading = false :=
    begins_eq_false (c := ' ') rfl (by rw [head?_heading]; decide)
  rw [lines_eq, List.filter_cons_of_neg (ne_true_of_eq_false heading), List.filter_append,
    List.filter_eq_self.mpr fun line member => report.begins_of_mem_numbered member]
  exact List.append_nil _

theorem filter_unreadable_lines : report.lines.filter (begins "Could not read file: ") = [] := by
  refine filter_begins_eq_nil (c := 'C') rfl ?_
  intro line member
  rw [lines_eq] at member
  rcases List.mem_cons.mp member with rfl | behind
  · rw [head?_heading]
    decide
  · rcases List.mem_append.mp behind with numbered | blank
    · rw [report.head?_of_mem_numbered numbered]
      decide
    · rw [List.mem_singleton.mp blank]
      decide

/-- The lines of a report are read as one block. -/
theorem blocksOf_lines_append (back : List String) :
    blocksOf (report.lines ++ back) = (report.heading, report.numbered) :: blocksOf back := by
  have issues : ((report.numbered ++ [""]) ++ back).takeWhile (begins "  Issue ") =
      report.numbered := by
    rw [List.append_assoc, List.takeWhile_append_of_pos fun line member =>
      report.begins_of_mem_numbered member]
    exact List.append_nil _
  rw [lines_eq, List.cons_append, blocksOf, if_pos report.begins_heading, issues,
    blocksOf_append fun line member => report.begins_of_mem_tail member]

theorem blocksOf_flatMap_lines (reports : List Report) (back : List String) :
    blocksOf (reports.flatMap lines ++ back) =
      reports.map (fun report => (report.heading, report.numbered)) ++ blocksOf back := by
  induction reports with
  | nil => rfl
  | cons report rest ih =>
    rw [List.flatMap_cons, List.append_assoc, blocksOf_lines_append, ih]
    rfl

end Report

theorem Unreadable.head?_line (file : Unreadable) : file.line.toList.head? = some 'C' := by
  unfold line
  exact head?_append (head?_append (head?_append (head?_append rfl _) _) _) _

theorem Unreadable.begins_line (file : Unreadable) :
    begins "Could not read file: " file.line = true := by
  unfold line
  simp only [String.append_assoc]
  exact begins_append _ _

/-- The last line where there are findings: how many of each severity, and in how many of how many
files. -/
def foundLine (counts : SeverityCounts) (dirty scanned : Nat) : String :=
  "Found " ++ toString counts.errors ++ " error(s), " ++ toString counts.warnings ++
    " warning(s), " ++ toString counts.infos ++ " info(s) in " ++ toString dirty ++ " of " ++
    toString scanned ++ " file(s)"

/-- The words of the line of figures. Each figure is a word of its own. -/
def foundWords (counts : SeverityCounts) (dirty scanned : Nat) : List String :=
  ["Found", toString counts.errors, "error(s),", toString counts.warnings, "warning(s),",
    toString counts.infos, "info(s)", "in", toString dirty, "of", toString scanned, "file(s)"]

theorem foundLine_eq (counts : SeverityCounts) (dirty scanned : Nat) :
    foundLine counts dirty scanned = " ".intercalate (foundWords counts dirty scanned) := by
  unfold foundLine
  simp only [foundWords, String.intercalate_cons_cons, String.intercalate_singleton]
  simp [← String.toList_inj, -Nat.toString_eq_repr]

/-- The closing line can be cut at its blanks into the words it was made of. -/
theorem solid_foundWords (counts : SeverityCounts) (dirty scanned : Nat) :
    ∀ word ∈ foundWords counts dirty scanned, word ≠ "" ∧ ' ' ∉ word.toList := by
  have figure (n : Nat) : toString n ≠ "" ∧ ' ' ∉ (toString n).toList :=
    ⟨Nat.repr_ne_empty, not_mem_toString rfl n⟩
  simp only [foundWords, List.forall_mem_cons]
  exact ⟨by decide, figure _, by decide, figure _, by decide, figure _, by decide, by decide,
    figure _, by decide, figure _, by decide, by simp⟩

theorem head?_foundLine (counts : SeverityCounts) (dirty scanned : Nat) :
    (foundLine counts dirty scanned).toList.head? = some 'F' := by
  rw [foundLine_eq, foundWords, String.intercalate_cons_cons]
  exact head?_append (head?_append rfl _) _

theorem foundLine_ne {counts : SeverityCounts} {dirty scanned : Nat} {line : String}
    (other : line.toList.head? ≠ some 'F') : foundLine counts dirty scanned ≠ line := by
  rintro rfl
  exact other (head?_foundLine counts dirty scanned)

/-- The figures can be read off their line. -/
theorem foundLine_inj {counts others : SeverityCounts} {dirty scanned m n : Nat} :
    foundLine counts dirty scanned = foundLine others m n ↔
      counts = others ∧ dirty = m ∧ scanned = n := by
  constructor
  · intro same
    rw [foundLine_eq, foundLine_eq] at same
    have words := Text.intercalate_injective rfl (solid_foundWords counts dirty scanned)
      (solid_foundWords others m n) same
    have figure {a b : Nat} (same : toString a = toString b) : a = b :=
      eq_of_toString_eq (congrArg String.toList same)
    simp only [foundWords, List.cons.injEq, true_and, and_true] at words
    obtain ⟨errors, warnings, infos, files, total⟩ := words
    refine ⟨?_, figure files, figure total⟩
    rw [SeverityCounts.mk.injEq]
    exact ⟨figure errors, figure warnings, figure infos⟩
  · rintro ⟨rfl, rfl, rfl⟩
    rfl

theorem Finding.feed_not_mem_describe {f : Finding} (text : '\n' ∉ f.text.toList) :
    '\n' ∉ f.describe.toList := by
  have digits := not_mem_toString (c := '\n') rfl
  have label : '\n' ∉ f.kind.label.toList := by cases f.kind <;> decide
  simp [describe, -Nat.toString_eq_repr, text, digits, label]

namespace Summary

variable (s : Summary)

def dirty : List Report := s.reports.filter Report.hasIssues

/-- A summary with no line feed in any text that the text report shows. -/
structure Unbroken (s : Summary) : Prop where
  files : ∀ report ∈ s.reports, '\n' ∉ report.file.toList
  texts : ∀ f ∈ s.findings, '\n' ∉ f.text.toList
  unreadable : ∀ file ∈ s.unreadable, '\n' ∉ file.file.toList ∧ '\n' ∉ file.reason.toList

theorem length_dirty : s.dirty.length = s.filesWithIssues := List.countP_eq_length_filter.symm

/-- All findings are in the reports with findings. -/
theorem flatMap_findings_dirty : s.dirty.flatMap Report.findings = s.findings := by
  rw [dirty, findings]
  induction s.reports with
  | nil => rfl
  | cons report rest ih =>
    rw [List.flatMap_cons, ← ih, List.filter_cons]
    split
    · rfl
    · rename_i clean
      rw [Report.hasIssues_iff, not_not] at clean
      rw [clean, List.nil_append]

/-- The last line where some file was analyzed and nothing was found. -/
def cleanLine : String := "No code quality issues found in any files."

/-- The last line where no file was analyzed: there was none, or none could be read. -/
def emptyLine (unreadable : Bool) : String :=
  if unreadable then "No readable source files found." else "No source files found."

theorem closingLine_of_issues (found : s.outcome = .issuesFound) :
    s.closingLine = foundLine s.severityCounts s.filesWithIssues s.filesScanned := by
  rw [closingLine, found]
  rfl

theorem closingLine_of_clean (clean : s.outcome = .clean) : s.closingLine = cleanLine := by
  rw [closingLine, clean]
  rfl

theorem closingLine_of_noFiles (none : s.outcome = .noFiles) :
    s.closingLine = emptyLine (!s.unreadable.isEmpty) := by
  rw [closingLine, none]
  cases s.unreadable.isEmpty <;> rfl

theorem head?_closingLine : s.closingLine.toList.head? ∈ [some 'F', some 'N'] := by
  cases outcome : s.outcome with
  | noFiles =>
    rw [s.closingLine_of_noFiles outcome]
    cases s.unreadable.isEmpty <;> decide
  | clean =>
    rw [s.closingLine_of_clean outcome]
    decide
  | issuesFound =>
    rw [s.closingLine_of_issues outcome, head?_foundLine]
    decide

theorem getLast?_textLines : s.textLines.getLast? = some s.closingLine := by
  simp [textLines]

/-- The lines about unreadable files, and the blank line behind them. -/
theorem mem_unreadableLines {line : String} (member : line ∈ s.unreadableLines) :
    line = "" ∨ ∃ file ∈ s.unreadable, file.line = line := by
  rw [unreadableLines] at member
  split at member
  · cases member
  rcases List.mem_append.mp member with listed | blank
  · exact .inr (List.mem_map.mp listed)
  · exact .inl (List.mem_singleton.mp blank)

/-- The lines behind the blocks: those about unreadable files, a blank line behind them, and the
last one. -/
theorem head?_of_mem_end {line : String} (member : line ∈ s.unreadableLines ++ [s.closingLine]) :
    line.toList.head? ∈ [none, some 'C', some 'F', some 'N'] := by
  rcases List.mem_append.mp member with unreadable | closing
  · rcases s.mem_unreadableLines unreadable with rfl | ⟨file, -, rfl⟩
    · decide
    · rw [file.head?_line]
      decide
  · rw [List.mem_singleton.mp closing]
    exact List.mem_cons_of_mem _ (List.mem_cons_of_mem _ s.head?_closingLine)

theorem head?_ne_of_mem_end {c : Char} (inside : some c ∉ [none, some 'C', some 'F', some 'N'])
    {line : String} (member : line ∈ s.unreadableLines ++ [s.closingLine]) :
    line.toList.head? ≠ some c :=
  fun same => inside (same ▸ s.head?_of_mem_end member)

theorem textLines_eq :
    s.textLines = s.dirty.flatMap Report.lines ++ (s.unreadableLines ++ [s.closingLine]) :=
  List.append_assoc _ _ _

/-- Words with which none of the lines behind the blocks begins are sought in the blocks alone. -/
theorem filter_textLines {words : String} {c : Char} (first : words.toList.head? = some c)
    (inside : some c ∉ [none, some 'C', some 'F', some 'N']) :
    s.textLines.filter (begins words) =
      s.dirty.flatMap fun report => report.lines.filter (begins words) := by
  have behind : (s.unreadableLines ++ [s.closingLine]).filter (begins words) = [] :=
    filter_begins_eq_nil first fun line member => s.head?_ne_of_mem_end inside member
  rw [textLines_eq, List.filter_append, behind, List.append_nil, List.filter_flatMap]

/-- Only files with issues have a heading. -/
theorem headings_textLines :
    s.textLines.filter (begins "Issues in file: ") = s.dirty.map Report.heading := by
  rw [s.filter_textLines (c := 'I') rfl (by decide), List.map_eq_flatMap]
  simp only [Report.filter_heading_lines]

theorem issues_textLines :
    s.textLines.filter (begins "  Issue ") = s.dirty.flatMap Report.numbered := by
  rw [s.filter_textLines (c := ' ') rfl (by decide)]
  simp only [Report.filter_issue_lines]

theorem length_numbered : (s.dirty.flatMap Report.numbered).length =
    s.severityCounts.errors + s.severityCounts.warnings + s.severityCounts.infos := by
  have issues : s.dirty.map (fun report => report.numbered.length) =
      s.dirty.map fun report => report.findings.length :=
    List.map_congr_left fun report _ => report.length_numbered
  rw [List.length_flatMap, issues, ← List.length_flatMap, flatMap_findings_dirty]
  exact s.countAt_add.symm

theorem filter_unreadableLines :
    s.unreadableLines.filter (begins "Could not read file: ") =
      s.unreadable.map Unreadable.line := by
  rw [unreadableLines]
  split
  · rename_i none
    rw [List.isEmpty_iff.mp none]
    rfl
  · rw [List.filter_append, List.filter_eq_self.mpr]
    · exact List.append_nil _
    · intro line member
      obtain ⟨file, -, rfl⟩ := List.mem_map.mp member
      exact file.begins_line

/-- Each unreadable file has its line, and no other line looks like one. -/
theorem unreadable_textLines :
    s.textLines.filter (begins "Could not read file: ") = s.unreadable.map Unreadable.line := by
  have reports : (s.dirty.flatMap Report.lines).filter (begins "Could not read file: ") = [] := by
    simp [List.filter_flatMap, Report.filter_unreadable_lines]
  have closing : [s.closingLine].filter (begins "Could not read file: ") = [] := by
    refine filter_begins_eq_nil (c := 'C') rfl fun line member same => ?_
    have first := s.head?_closingLine
    rw [← List.mem_singleton.mp member, same] at first
    simp at first
  rw [textLines_eq, List.filter_append, List.filter_append, reports, closing,
    filter_unreadableLines, List.append_nil]
  rfl

/-- The blocks read off a report are those of its files with issues, in their order. -/
theorem blocksOf_textLines : blocksOf s.textLines =
    s.dirty.map fun report => (report.heading, report.numbered) := by
  have behind : ∀ line ∈ s.unreadableLines ++ [s.closingLine],
      begins "Issues in file: " line = false := fun line member =>
    begins_eq_false (c := 'I') rfl (s.head?_ne_of_mem_end (by decide) member)
  have none := blocksOf_append behind []
  rw [List.append_nil] at none
  rw [textLines_eq, Report.blocksOf_flatMap_lines, none]
  exact List.append_nil _

/-- What is needed to read the last line: the outcome is told by it, and so are the figures. -/
theorem closingLine_eq_foundLine_iff {counts : SeverityCounts} {files total : Nat} :
    s.closingLine = foundLine counts files total ↔ s.outcome = .issuesFound ∧
      counts = s.severityCounts ∧ files = s.filesWithIssues ∧ total = s.filesScanned := by
  cases outcome : s.outcome with
  | noFiles =>
    rw [s.closingLine_of_noFiles outcome]
    refine iff_of_false (foundLine_ne ?_).symm (by simp)
    cases s.unreadable.isEmpty <;> decide
  | clean =>
    rw [s.closingLine_of_clean outcome]
    exact iff_of_false (foundLine_ne (by decide)).symm (by simp)
  | issuesFound =>
    rw [s.closingLine_of_issues outcome, foundLine_inj]
    simp [eq_comm]

theorem closingLine_eq_cleanLine_iff : s.closingLine = cleanLine ↔ s.outcome = .clean := by
  cases outcome : s.outcome with
  | noFiles =>
    rw [s.closingLine_of_noFiles outcome]
    cases s.unreadable.isEmpty <;> decide
  | clean => simp [s.closingLine_of_clean outcome]
  | issuesFound =>
    rw [s.closingLine_of_issues outcome]
    exact iff_of_false (foundLine_ne (by decide)) (by simp)

theorem closingLine_eq_emptyLine_iff {unreadable : Bool} :
    s.closingLine = emptyLine unreadable ↔
      s.outcome = .noFiles ∧ unreadable = !s.unreadable.isEmpty := by
  cases outcome : s.outcome with
  | noFiles =>
    rw [s.closingLine_of_noFiles outcome]
    cases s.unreadable.isEmpty <;> cases unreadable <;> decide
  | clean =>
    rw [s.closingLine_of_clean outcome]
    cases unreadable <;> simp [cleanLine, emptyLine]
  | issuesFound =>
    rw [s.closingLine_of_issues outcome]
    refine iff_of_false (foundLine_ne ?_) (by simp)
    cases unreadable <;> decide

theorem length_blocksOf : (blocksOf s.textLines).length = s.filesWithIssues := by
  rw [blocksOf_textLines, List.length_map, length_dirty]

theorem blocksOf_ne_nil_iff : blocksOf s.textLines ≠ [] ↔ s.outcome = .issuesFound := by
  rw [outcome_eq_issuesFound_iff, ← length_blocksOf, List.length_pos_iff]

/-- Lines that show the same of a summary as their last one says. -/
structure AddsUp (s : Summary) (lines : List String) : Prop where
  headings : lines.filter (begins "Issues in file: ") =
    (s.reports.filter Report.hasIssues).map fun report => "Issues in file: " ++ report.file
  count_headings : lines.countP (begins "Issues in file: ") = s.filesWithIssues
  blocks : blocksOf lines = (s.reports.filter Report.hasIssues).map fun report =>
    ("Issues in file: " ++ report.file,
      report.findings.mapIdx fun i f => "  Issue " ++ toString (i + 1) ++ " - " ++ f.describe)
  count_issues : lines.countP (begins "  Issue ") =
    s.severityCounts.errors + s.severityCounts.warnings + s.severityCounts.infos
  unreadable : lines.filter (begins "Could not read file: ") =
    s.unreadable.map fun file => "Could not read file: " ++ file.file ++ " (" ++ file.reason ++ ")"
  found_iff : ∀ counts files total, lines.getLast? = some (foundLine counts files total) ↔
    blocksOf lines ≠ [] ∧ counts = s.severityCounts ∧
      files = (blocksOf lines).length ∧ total = s.reports.length
  clean_iff : lines.getLast? = some "No code quality issues found in any files." ↔
    s.reports ≠ [] ∧ blocksOf lines = []
  noFiles_iff : lines.getLast? = some "No source files found." ↔
    s.reports = [] ∧ s.unreadable = []
  noReadable_iff : lines.getLast? = some "No readable source files found." ↔
    s.reports = [] ∧ s.unreadable ≠ []

/-- The numbers of the closing line are those of the blocks above it. -/
theorem addsUp_textLines : s.AddsUp s.textLines where
  headings := s.headings_textLines
  count_headings := by
    rw [List.countP_eq_length_filter, headings_textLines, List.length_map, length_dirty]
  blocks := s.blocksOf_textLines
  count_issues := by
    rw [List.countP_eq_length_filter, issues_textLines, length_numbered]
  unreadable := s.unreadable_textLines
  found_iff counts files total := by
    rw [getLast?_textLines, Option.some_inj, closingLine_eq_foundLine_iff, blocksOf_ne_nil_iff,
      length_blocksOf]
    rfl
  clean_iff := by
    have nothing : blocksOf s.textLines = [] ↔ s.filesWithIssues = 0 := by
      rw [← length_blocksOf, List.length_eq_zero_iff]
    have scanned : s.reports ≠ [] ↔ s.filesScanned ≠ 0 := List.length_eq_zero_iff.not.symm
    rw [getLast?_textLines, Option.some_inj, nothing, scanned, ← outcome_eq_clean_iff]
    exact s.closingLine_eq_cleanLine_iff
  noFiles_iff := by
    rw [getLast?_textLines, Option.some_inj, ← outcome_eq_noFiles_iff]
    refine (@closingLine_eq_emptyLine_iff s false).trans (and_congr_right fun _ => ?_)
    simp
  noReadable_iff := by
    rw [getLast?_textLines, Option.some_inj, ← outcome_eq_noFiles_iff]
    refine (@closingLine_eq_emptyLine_iff s true).trans (and_congr_right fun _ => ?_)
    simp

variable {s}

theorem feed_not_mem_closingLine : '\n' ∉ s.closingLine.toList := by
  cases outcome : s.outcome with
  | noFiles =>
    rw [s.closingLine_of_noFiles outcome]
    cases s.unreadable.isEmpty <;> decide
  | clean =>
    rw [s.closingLine_of_clean outcome]
    decide
  | issuesFound =>
    have digits := not_mem_toString (c := '\n') rfl
    rw [s.closingLine_of_issues outcome]
    unfold foundLine
    simp [-Nat.toString_eq_repr, digits]

theorem Unbroken.feed_not_mem_lines (unbroken : s.Unbroken) {report : Report}
    (reported : report ∈ s.reports) : ∀ line ∈ report.lines, '\n' ∉ line.toList := by
  intro line member
  rw [Report.lines_eq] at member
  rcases List.mem_cons.mp member with rfl | behind
  · exact not_mem_append (by decide) (unbroken.files report reported)
  rcases List.mem_append.mp behind with numbered | blank
  · obtain ⟨i, bound, rfl⟩ := List.mem_mapIdx.mp numbered
    have found : report.findings[i] ∈ s.findings :=
      List.mem_flatMap.mpr ⟨report, reported, List.getElem_mem bound⟩
    have number : '\n' ∉ ("  Issue " ++ toString (i + 1)).toList :=
      not_mem_append (by decide) (not_mem_toString rfl _)
    exact not_mem_append (not_mem_append number (by decide))
      (Finding.feed_not_mem_describe (unbroken.texts _ found))
  · rw [List.mem_singleton.mp blank]
    decide

theorem Unbroken.feed_not_mem_unreadableLines (unbroken : s.Unbroken) :
    ∀ line ∈ s.unreadableLines, '\n' ∉ line.toList := by
  intro line member
  rcases s.mem_unreadableLines member with rfl | ⟨file, listed, rfl⟩
  · decide
  · obtain ⟨named, reason⟩ := unbroken.unreadable file listed
    have front : '\n' ∉ ("Could not read file: " ++ file.file).toList :=
      not_mem_append (by decide) named
    exact not_mem_append (not_mem_append (not_mem_append front (by decide)) reason) (by decide)

/-- Where no text has a line feed, the lines of the report have none. -/
theorem Unbroken.feed_not_mem_textLines (unbroken : s.Unbroken) :
    ∀ line ∈ s.textLines, '\n' ∉ line.toList := by
  intro line member
  rw [textLines_eq] at member
  rcases List.mem_append.mp member with block | behind
  · obtain ⟨report, kept, inside⟩ := List.mem_flatMap.mp block
    exact unbroken.feed_not_mem_lines (List.mem_filter.mp kept).1 line inside
  rcases List.mem_append.mp behind with unreadable | closing
  · exact unbroken.feed_not_mem_unreadableLines line unreadable
  · rw [List.mem_singleton.mp closing]
    exact s.feed_not_mem_closingLine

end Summary

/-- The text report of a summary in which no text has a line feed adds up. -/
theorem text_report_adds_up (s : Summary) (unbroken : s.Unbroken) :
    s.AddsUp (printedLines (s.render .text)) := by
  have lines : printedLines (s.render .text) = s.textLines :=
    printedLines_intercalate (by simp [Summary.textLines]) unbroken.feed_not_mem_textLines
  rw [lines]
  exact s.addsUp_textLines

/-- Texts and names look like lines of the report themselves, and a message, which is not shown, has
a line feed. -/
theorem text_report_adds_up_despite_imitation :
    let f (severity : Severity) (text : String) : Finding :=
      ⟨.methodNaming, severity, ⟨"a", 3, 2⟩, text, "\nFound"⟩
    let s : Summary :=
      ⟨[⟨"a", [f .error "Issues in file: b", f .info "  Issue 1 - "]⟩, ⟨"b", []⟩,
        ⟨"Found 0 error(s)", [f .warning ""]⟩], [⟨"d", "Issues in file: d"⟩]⟩
    s.Unbroken ∧ s.AddsUp (printedLines (s.render .text)) ∧ printedLines (s.render .text) =
      ["Issues in file: a", "  Issue 1 - Line 3: Method naming issue - Issues in file: b",
        "  Issue 2 - Line 3: Method naming issue -   Issue 1 - ", "",
        "Issues in file: Found 0 error(s)", "  Issue 1 - Line 3: Method naming issue - ", "",
        "Could not read file: d (Issues in file: d)", "",
        "Found 1 error(s), 1 warning(s), 1 info(s) in 2 of 3 file(s)"] := by
  intro f s
  have unbroken : s.Unbroken := ⟨by decide, by decide, by decide⟩
  have lines : printedLines (s.render .text) = s.textLines :=
    printedLines_intercalate (by simp [Summary.textLines]) unbroken.feed_not_mem_textLines
  refine ⟨unbroken, text_report_adds_up s unbroken, lines.trans ?_⟩
  decide

end LineLint
