import LineLint.Proofs.CompactOutput

/-! # Printed lines

What is printed ends with a line feed, so that its lines are what stands in front of its line feeds.
In the compact form each finding has a line of its own and nothing else has one, with a single
exception: where there is no finding at all, the line feed at the end makes an empty line.
-/

namespace LineLint

/-- The lines of what is printed, each without the line feed that ends it. -/
def printedLines (text : String) : List String :=
  (Text.split '\n' text.toList).dropLast.map String.ofList

/-- Lines that hold no line feed are read back from what is printed. -/
theorem printedLines_intercalate {lines : List String} (nonempty : lines ≠ [])
    (unbroken : ∀ line ∈ lines, '\n' ∉ line.toList) :
    printedLines ("\n".intercalate lines ++ "\n") = lines := by
  have cut : Text.split '\n' ("\n".intercalate lines).toList = lines.map String.toList :=
    Text.split_intercalate rfl nonempty unbroken
  have feed : ("\n".intercalate lines ++ "\n").toList =
      ("\n".intercalate lines).toList ++ '\n' :: [] := String.toList_append
  rw [printedLines, feed, Text.split_append_cons, cut, Text.split, List.dropLast_concat,
    List.map_map]
  simp [Function.comp_def]

/-- Lines with line feeds between them and one at the end each have one behind them. -/
theorem toList_intercalate_feed {lines : List String} (nonempty : lines ≠ []) :
    ("\n".intercalate lines ++ "\n").toList = lines.flatMap fun line => line.toList ++ ['\n'] := by
  induction lines with
  | nil => exact absurd rfl nonempty
  | cons line rest ih =>
    cases rest with
    | nil => simp
    | cons next rest =>
      have later := ih (List.cons_ne_nil next rest)
      rw [List.flatMap_cons, ← later]
      simp [String.intercalate_cons_cons]

/-- A finding whose line in the compact form has no line feed in it. -/
structure Finding.Unbroken (f : Finding) : Prop where
  file : '\n' ∉ f.location.file.toList
  message : '\n' ∉ f.message.toList

/-- In the compact form of findings without line feeds, each has one line, in their order. Where
there are none, one empty line is printed. -/
theorem compact_has_line_per_finding (s : Summary) (unbroken : ∀ f ∈ s.findings, f.Unbroken) :
    (s.findings ≠ [] →
      (s.render .compact).toList = s.findings.flatMap (fun f => f.display.toList ++ ['\n']) ∧
        printedLines (s.render .compact) = s.findings.map Finding.display ∧
        (printedLines (s.render .compact)).length = s.findings.length) ∧
      (s.findings = [] → s.render .compact = "\n" ∧ printedLines (s.render .compact) = [""]) := by
  constructor
  · intro found
    have nonempty : s.findings.map Finding.display ≠ [] := by simpa using found
    have lines : printedLines (s.render .compact) = s.findings.map Finding.display := by
      refine printedLines_intercalate nonempty ?_
      intro line isLine
      obtain ⟨f, member, rfl⟩ := List.mem_map.mp isLine
      exact f.feed_not_mem_display (unbroken f member).message (unbroken f member).file
    refine ⟨?_, lines, ?_⟩
    · rw [Summary.render, toList_intercalate_feed nonempty, List.flatMap_map]
    · rw [lines, List.length_map]
  · intro none
    have feed : s.render .compact = "\n" := by
      rw [Summary.render, none]
      rfl
    rw [feed]
    exact ⟨rfl, by decide⟩

/-- Two reports have findings and one between them has none; a message looks like a line itself. -/
theorem compact_has_line_per_finding_of_misleading_message :
    let f (file message : String) (severity : Severity) : Finding :=
      ⟨.methodNaming, severity, ⟨file, 1, 2⟩, "g\nh", message⟩
    let s : Summary :=
      ⟨[⟨"a", [f "a" "b:1:2: error [SL003] c" .info]⟩, ⟨"b", []⟩, ⟨"c", [f "c" "" .error]⟩],
        [⟨"d\n", "denied"⟩]⟩
    (∀ f ∈ s.findings, f.Unbroken) ∧ s.findings ≠ [] ∧
      printedLines (s.render .compact) =
        ["a:1:2: info [SL003] b:1:2: error [SL003] c", "c:1:2: error [SL003] "] := by
  intro f s
  have unbroken : ∀ f ∈ s.findings, f.Unbroken := by
    intro g member
    obtain rfl | rfl : g = f "a" "b:1:2: error [SL003] c" .info ∨ g = f "c" "" .error := by
      simpa [s, Summary.findings] using member
    · exact ⟨by decide, by decide⟩
    · exact ⟨by decide, by decide⟩
  have found : s.findings ≠ [] := by decide
  refine ⟨unbroken, found, ((compact_has_line_per_finding s unbroken).1 found).2.1.trans ?_⟩
  decide

/-- A file is analyzed and nothing is found in it, and yet there is a line. -/
theorem compact_has_line_without_finding :
    let s : Summary := ⟨[⟨"a.cs", []⟩], []⟩
    (∀ f ∈ s.findings, f.Unbroken) ∧ s.outcome = .clean ∧
      (s.render .compact).toList ≠ s.findings.flatMap (fun f => f.display.toList ++ ['\n']) ∧
      (printedLines (s.render .compact)).length ≠ s.findings.length := by
  intro s
  have none : s.findings = [] := rfl
  have feed : s.render .compact = "\n" := rfl
  rw [none, feed]
  exact ⟨by simp, rfl, by decide, by decide⟩

end LineLint
