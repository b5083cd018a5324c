import LineLint.OutputFormat
import LineLint.Proofs.JsonMembers
import LineLint.Proofs.JsonText
import Mathlib.Data.List.Forall2

/-! # Summaries from their JSON

What is printed of a summary as JSON is a JSON text from which the summary can be recovered, and the
members that are computed agree with what is recovered. So different summaries are printed
differently.
-/

namespace LineLint

open Json (Value)

namespace Json.Value

/-- The value of a member of an object, if the member is there exactly once. -/
def member? (key : String) : Value → Option Value
  | object members => unique? key members
  | _ => none

def items? : Value → Option (List Value)
  | array items => some items
  | _ => none

theorem plain_ofString (text : String) : (ofString text).Plain := .string (some text)

theorem plain_ofMembers {members : List (String × Value)}
    (plain : ∀ member ∈ members, member.2.Plain) : (ofMembers members).Plain := by
  apply Plain.object
  intro entry listed
  obtain ⟨member, given, rfl⟩ := List.mem_map.mp listed
  exact plain member given

theorem plain_array_map {α : Type} {toJson : α → Value} (list : List α)
    (plain : ∀ a, (toJson a).Plain) : (array (list.map toJson)).Plain := by
  apply Plain.array
  intro item listed
  obtain ⟨a, _, rfl⟩ := List.mem_map.mp listed
  exact plain a

end Json.Value

namespace Location

/-- Whether a line and a column are numbers of 64 bits. -/
def Fits (location : Location) : Prop :=
  location.line < UInt64.size ∧ location.column < UInt64.size

theorem plain_toJson (location : Location) : location.toJson.Plain := by
  apply Value.plain_ofMembers
  simp [Value.plain_ofString, Value.Plain.ofNat]

theorem position?_ofNat {n : Nat} (fits : n < UInt64.size) : position? (.ofNat n) = some n := by
  rw [position?, Value.toNat?_ofNat, Option.filter_some, if_pos (decide_eq_true fits)]

theorem ofJson?_toJson {location : Location} (fits : location.Fits) :
    ofJson? location.toJson = some location := by
  have fields : location.toJson.fields? ["file", "line", "column"] =
      some [.ofString location.file, .ofNat location.line, .ofNat location.column] := by
    simp [toJson, Value.ofMembers, Value.fields?, Value.unique?, Value.under]
  simp [ofJson?, fields, position?_ofNat fits.1, position?_ofNat fits.2, Value.toText?_ofString]

end Location

namespace Finding

theorem plain_toJson (f : Finding) : f.toJson.Plain := by
  apply Value.plain_ofMembers
  simp [Value.plain_ofString, Location.plain_toJson]

theorem ofJson?_toJson {f : Finding} (fits : f.location.Fits) : ofJson? f.toJson = some f := by
  have fields : f.toJson.fields? ["rule", "severity", "location", "text", "message"] =
      some [.ofString f.kind.name, .ofString f.severity.name, f.location.toJson, .ofString f.text,
        .ofString f.message] := by
    simp [toJson, Value.ofMembers, Value.fields?, Value.unique?, Value.under]
  have word : ∀ text : String, (Value.ofString text).word? = some text := fun _ => rfl
  simp [ofJson?, fields, word, RuleKind.ofName?_name, Severity.ofName?_name,
    Location.ofJson?_toJson fits, Value.toText?_ofString]

end Finding

def Report.ofJson? (value : Value) : Option Report := do
  let file ← value.member? "file"
  let findings ← value.member? "findings"
  some ⟨← file.toText?, ← (← findings.items?).mapM Finding.ofJson?⟩

def Unreadable.ofJson? (value : Value) : Option Unreadable := do
  let file ← value.member? "file"
  let reason ← value.member? "reason"
  some ⟨← file.toText?, ← reason.toText?⟩

/-- The summary that a value holds: its two lists, whatever else is there. -/
def Summary.ofJson? (value : Value) : Option Summary := do
  let reports ← value.member? "reports"
  let unreadable ← value.member? "unreadable"
  some
    ⟨← (← reports.items?).mapM Report.ofJson?, ← (← unreadable.items?).mapM Unreadable.ofJson?⟩

theorem forall₂_map_left {α β : Type} {R : β → α → Prop} {written : α → β} {list : List α}
    (each : ∀ a ∈ list, R (written a) a) : List.Forall₂ R (list.map written) list :=
  List.forall₂_map_left_iff.mpr (List.forall₂_same.mpr each)

namespace Report

theorem plain_toJson (report : Report) : report.toJson.Plain := by
  apply Value.plain_ofMembers
  simp [Value.plain_ofString, Value.Plain.boolean, Value.plain_array_map, Finding.plain_toJson]

theorem member?_toJson (report : Report) :
    report.toJson.member? "file" = some (.ofString report.file) ∧
      report.toJson.member? "has_issues" = some (.boolean report.hasIssues) ∧
      report.toJson.member? "findings" = some (.array (report.findings.map Finding.toJson)) := by
  simp [toJson, Value.ofMembers, Value.member?, Value.unique?, Value.under]

theorem ofJson?_toJson {report : Report} (fits : ∀ f ∈ report.findings, f.location.Fits) :
    ofJson? report.toJson = some report := by
  obtain ⟨file, _, findings⟩ := report.member?_toJson
  have read : (report.findings.map Finding.toJson).mapM Finding.ofJson? = some report.findings := by
    simpa using mapM_map_eq_some_map fun f member => Finding.ofJson?_toJson (fits f member)
  simp [ofJson?, file, findings, Value.items?, read, Value.toText?_ofString]

end Report

namespace Unreadable

theorem plain_toJson (file : Unreadable) : file.toJson.Plain := by
  apply Value.plain_ofMembers
  simp [Value.plain_ofString]

theorem ofJson?_toJson (file : Unreadable) : ofJson? file.toJson = some file := by
  simp [ofJson?, toJson, Value.ofMembers, Value.member?, Value.unique?, Value.under,
    Value.toText?_ofString]

end Unreadable

/-- Whether a value says of a report what the report says: its file, whether it has findings, and
the findings one by one. -/
structure Report.ToldBy (report : Report) (value : Value) : Prop where
  file : (value.member? "file").bind Value.toText? = some report.file
  hasIssues : value.member? "has_issues" = some (.boolean report.hasIssues)
  findings : ∃ items, value.member? "findings" = some (.array items) ∧
    List.Forall₂ (fun item f => Finding.ofJson? item = some f) items report.findings

/-- Whether a value says of a summary what the summary says: it can be recovered from the lists, and
what is computed agrees with them. -/
structure Summary.ToldBy (s : Summary) (value : Value) : Prop where
  recovered : Summary.ofJson? value = some s
  outcome : (value.member? "outcome").bind Value.toText? = some s.outcome.name
  filesScanned : (value.member? "files_scanned").bind Value.toNat? = some s.filesScanned
  filesWithIssues : (value.member? "files_with_issues").bind Value.toNat? = some s.filesWithIssues
  reports : ∃ items, value.member? "reports" = some (.array items) ∧
    List.Forall₂ (fun item report => report.ToldBy item) items s.reports

theorem Report.toldBy_toJson {report : Report} (fits : ∀ f ∈ report.findings, f.location.Fits) :
    report.ToldBy report.toJson := by
  obtain ⟨file, hasIssues, findings⟩ := report.member?_toJson
  refine ⟨?_, hasIssues, _, findings, ?_⟩
  · rw [file]
    rfl
  · apply forall₂_map_left
    intro f member
    exact Finding.ofJson?_toJson (fits f member)

namespace Summary

/-- Whether the lines and columns of all findings are numbers of 64 bits. -/
def Fits (s : Summary) : Prop := ∀ f ∈ s.findings, f.location.Fits

theorem Fits.of_mem {s : Summary} (fits : s.Fits) {report : Report} (member : report ∈ s.reports) :
    ∀ f ∈ report.findings, f.location.Fits :=
  fun f found => fits f (List.mem_flatMap.mpr ⟨report, member, found⟩)

theorem plain_toJson (s : Summary) : s.toJson.Plain := by
  apply Value.plain_ofMembers
  simp [Value.plain_ofString, Value.Plain.ofNat, Value.plain_array_map, Report.plain_toJson,
    Unreadable.plain_toJson]

theorem member?_toJson (s : Summary) :
    s.toJson.member? "outcome" = some (.ofString s.outcome.name) ∧
      s.toJson.member? "files_scanned" = some (.ofNat s.filesScanned) ∧
      s.toJson.member? "files_with_issues" = some (.ofNat s.filesWithIssues) ∧
      s.toJson.member? "reports" = some (.array (s.reports.map Report.toJson)) ∧
      s.toJson.member? "unreadable" = some (.array (s.unreadable.map Unreadable.toJson)) := by
  simp [toJson, Value.ofMembers, Value.member?, Value.unique?, Value.under]

theorem ofJson?_toJson {s : Summary} (fits : s.Fits) : ofJson? s.toJson = some s := by
  obtain ⟨_, _, _, reports, unreadable⟩ := s.member?_toJson
  have readReports : (s.reports.map Report.toJson).mapM Report.ofJson? = some s.reports := by
    simpa using mapM_map_eq_some_map fun report member => Report.ofJson?_toJson (fits.of_mem member)
  have readUnreadable : (s.unreadable.map Unreadable.toJson).mapM Unreadable.ofJson? =
      some s.unreadable := by
    simpa using mapM_map_eq_some_map fun file _ => Unreadable.ofJson?_toJson file
  simp [ofJson?, reports, unreadable, Value.items?, readReports, readUnreadable]

/-- All that a summary says can be taken from its JSON. -/
theorem toldBy_toJson {s : Summary} (fits : s.Fits) : s.ToldBy s.toJson := by
  obtain ⟨outcome, scanned, withIssues, reports, _⟩ := s.member?_toJson
  refine ⟨ofJson?_toJson fits, ?_, ?_, ?_, _, reports, ?_⟩
  · rw [outcome]
    rfl
  · rw [scanned]
    exact Value.toNat?_ofNat s.filesScanned
  · rw [withIssues]
    exact Value.toNat?_ofNat s.filesWithIssues
  · apply forall₂_map_left
    intro report member
    exact Report.toldBy_toJson (fits.of_mem member)

/-- The printed text is JSON, and it is the JSON of the summary. -/
theorem ofText?_render (s : Summary) :
    Value.ofText? (s.render .json).toList = some s.toJson :=
  Value.ofText?_text s.plain_toJson

end Summary

/-- What is printed of a summary as JSON is a JSON text. Its value says what the summary says, so
that the summary is recovered from it, and what is printed of any other summary is another text. -/
theorem json_tells_summary {s : Summary} (fits : s.Fits) :
    (∃ value, Value.ofText? (s.render .json).toList = some value ∧ s.ToldBy value) ∧
      ∀ t : Summary, t.Fits → t ≠ s → t.render .json ≠ s.render .json := by
  refine ⟨⟨s.toJson, s.ofText?_render, Summary.toldBy_toJson fits⟩, ?_⟩
  intro t fitsT different same
  have values : t.toJson = s.toJson := by
    apply Option.some.inj
    rw [← t.ofText?_render, ← s.ofText?_render, same]
  have summaries : some t = some s := by
    rw [← Summary.ofJson?_toJson fitsT, ← Summary.ofJson?_toJson fits, values]
  exact different (Option.some.inj summaries)

/-- A file with a finding and one without, and texts with quotes, backslashes and control
characters. -/
theorem json_tells_escaped_summary :
    let f : Finding := ⟨.methodNaming, .info, ⟨"a\"\\", 0, UInt64.size - 1⟩, "\x01é\n", "\x7f"⟩
    let s : Summary := ⟨[⟨"a\"\\", [f]⟩, ⟨"", []⟩], [⟨"c", "\r\x1f"⟩]⟩
    s.Fits ∧ (∃ value, Value.ofText? (s.render .json).toList = some value ∧ s.ToldBy value) ∧
      Summary.empty.Fits ∧ Summary.empty.render .json ≠ s.render .json := by
  intro f s
  have fits : s.Fits := by
    intro g member
    obtain rfl : g = f := List.mem_singleton.mp member
    exact ⟨by decide, by decide⟩
  have empty : Summary.empty.Fits := fun _ member => absurd member List.not_mem_nil
  obtain ⟨told, others⟩ := json_tells_summary fits
  exact ⟨fits, told, empty, others _ empty (by decide)⟩

end LineLint
