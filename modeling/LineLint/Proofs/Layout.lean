import LineLint.Analyzer
import Mathlib.Data.List.Basic

/-! # Layouts of a file

The same lines can be laid out in many ways, since a line feed may stand behind a line alone or with
a carriage return before it, and the last line may lack both. Cutting a file into lines gives its
lines back whatever its layout, and every file is laid out in one of these ways.
-/

namespace LineLint

/-- What ends a line. -/
inductive Terminator where
  | feed
  | returnFeed
deriving DecidableEq, Repr

def Terminator.text : Terminator → String
  | feed => "\n"
  | returnFeed => "\r\n"

/-- A line and its terminator. In front of a line feed alone the line does not end with a carriage
return, which would be part of the terminator. -/
structure EndedLine where
  text : String
  terminator : Terminator
  no_feed : '\n' ∉ text.toList
  no_return : terminator = .feed → text.toList.getLast? ≠ some '\r'

/-- A line without a terminator. It holds something, and that may end with a carriage return. -/
structure OpenLine where
  text : String
  no_feed : '\n' ∉ text.toList
  nonempty : text ≠ ""

/-- The lines of a file with their terminators, and perhaps a last line without one. -/
structure Layout where
  ended : List EndedLine
  last : Option OpenLine

namespace EndedLine

variable (line : EndedLine)

/-- A line as it stands in a file. -/
def written : String := line.text ++ line.terminator.text

/-- A line as it stands in a file is cut off at its line feed, without its terminator. -/
theorem lines_written_append (rest : List Char) :
    Text.lines (line.written.toList ++ rest) = line.text.toList :: Text.lines rest := by
  rcases line with ⟨text, terminator, noFeed, noReturn⟩
  cases terminator with
  | feed =>
    have feed : (text ++ "\n").toList ++ rest = text.toList ++ '\n' :: rest := by simp
    rw [written, Terminator.text, feed, Text.lines_feed noFeed,
      Text.closeLine_of_no_return (noReturn rfl)]
  | returnFeed =>
    have feed : (text ++ "\r\n").toList ++ rest = (text.toList ++ ['\r']) ++ '\n' :: rest := by
      simp
    have noFeed : '\n' ∉ text.toList ++ ['\r'] := by simpa using noFeed
    rw [written, Terminator.text, feed, Text.lines_feed noFeed, Text.closeLine_return]

end EndedLine

namespace Layout

def content (layout : Layout) : String :=
  String.join (layout.ended.map EndedLine.written) ++ (layout.last.map OpenLine.text).getD ""

def texts (layout : Layout) : List String :=
  layout.ended.map EndedLine.text ++ (layout.last.map OpenLine.text).toList

def cons (line : EndedLine) (layout : Layout) : Layout := ⟨line :: layout.ended, layout.last⟩

theorem content_cons (line : EndedLine) (layout : Layout) :
    (cons line layout).content = line.written ++ layout.content := by
  simp [content, cons, String.append_assoc]

/-- Every layout of line ends is cut into the lines it was made of. -/
theorem lines_content (layout : Layout) :
    Text.lines layout.content.toList = layout.texts.map String.toList := by
  obtain ⟨ended, last⟩ := layout
  induction ended with
  | nil =>
    cases last with
    | none => simp [content, texts, Text.lines_nil]
    | some line =>
      have nonempty : line.text.toList ≠ [] := by simpa using line.nonempty
      simp [content, texts, Text.lines_eq_singleton line.no_feed nonempty]
  | cons line ended ih =>
    change Text.lines (cons line ⟨ended, last⟩).content.toList = _
    rw [content_cons, String.toList_append, line.lines_written_append, ih]
    rfl

/-- Every content has a layout: what stands before its first line feed is a line, and so on. -/
theorem exists_content_eq (content : List Char) :
    ∃ layout : Layout, layout.content = String.ofList content := by
  induction size : content.length using Nat.strongRecOn generalizing content with
  | ind size ih =>
    by_cases feed : '\n' ∈ content
    · obtain ⟨front, rest, rfl, noFeed⟩ := List.eq_append_cons_of_mem feed
      obtain ⟨layout, same⟩ := ih rest.length (by simp at size; omega) rest rfl
      by_cases last : front.getLast? = some '\r'
      · obtain ⟨text, rfl⟩ := List.getLast?_eq_some_iff.mp last
        have noFeed : '\n' ∉ (String.ofList text).toList := by simpa using noFeed
        refine ⟨cons ⟨String.ofList text, .returnFeed, noFeed, by simp⟩ layout, ?_⟩
        rw [content_cons, same]
        simp [EndedLine.written, Terminator.text, ← String.toList_inj]
      · have noFeed : '\n' ∉ (String.ofList front).toList := by simpa using noFeed
        refine ⟨cons ⟨String.ofList front, .feed, noFeed, by simpa using last⟩ layout, ?_⟩
        rw [content_cons, same]
        simp [EndedLine.written, Terminator.text, ← String.toList_inj]
    · by_cases empty : content = []
      · exact ⟨⟨[], none⟩, by simp [Layout.content, empty]⟩
      · have nonempty : String.ofList content ≠ "" := by simpa [← String.toList_inj] using empty
        refine ⟨⟨[], some ⟨String.ofList content, by simpa using feed, nonempty⟩⟩, ?_⟩
        simp [Layout.content]

end Layout

/-- Cutting a file into lines gives back the lines of its layout, numbered from one, so that the
report on the file is the report on these lines. Every content has a layout, and the lines that are
cut from it are those of the layout. -/
theorem layout_cut_into_lines (analyzer : Analyzer) (file : String) :
    (∀ layout : Layout,
      SourceLine.ofContent file layout.content =
        layout.texts.mapIdx (fun i text => ⟨file, i + 1, text⟩) ∧
      analyzer.analyzeSource file layout.content = analyzer.analyzeLines file layout.texts) ∧
    ∀ content : String, ∃ layout : Layout, layout.content = content ∧
      layout.texts = (SourceLine.ofContent file content).map SourceLine.text := by
  have cut : ∀ layout : Layout,
      SourceLine.ofContent file layout.content = SourceLine.ofTexts file layout.texts := by
    intro layout
    rw [SourceLine.ofContent, layout.lines_content, List.map_map]
    simp [Function.comp_def]
  refine ⟨?_, ?_⟩
  · intro layout
    refine ⟨?_, ?_⟩
    · rw [cut, SourceLine.ofTexts_eq_mapIdx]
    · rw [Analyzer.analyzeSource, cut, Analyzer.analyzeLines]
  · intro content
    obtain ⟨layout, same⟩ := Layout.exists_content_eq content.toList
    rw [String.ofList_toList] at same
    refine ⟨layout, same, ?_⟩
    rw [← same, cut, SourceLine.map_text_ofTexts]

/-- Of two carriage returns only the one right before the line feed is dropped. -/
example : (SourceLine.ofContent "a" "x\r\r\n\n\r").map SourceLine.text = ["x\r", "", "\r"] := by
  decide

end LineLint
