import LineLint.OutputFormat
import LineLint.Proofs.ReportOrder
import LineLint.Proofs.Schedule
import LineLint.Text.Split

/-! # What the compact form tells

A line of the compact form has no quotes, and the name of a file may look like a line itself. Read
from its end, such a line still tells a finding of the built-in rules, all but the text that it is about:
there is no bracket in the message, none in the code, no blank in the word for the severity, and no
colon in a number, so that what is left in front of them is the name. Nor is there a line feed in
the message, so that the lines can be told from one another.
-/

namespace LineLint

namespace Finding

/-- What a line of the compact form is to tell of a finding: file, line, column, severity, kind and
message. -/
def told (f : Finding) : String × Nat × Nat × Severity × RuleKind × String :=
  (f.location.file, f.location.line, f.location.column, f.severity, f.kind, f.message)

/-- There is neither a closing bracket nor a line feed in the message of a finding. -/
structure Plain (f : Finding) : Prop where
  bracket : ']' ∉ f.message.toList
  feed : '\n' ∉ f.message.toList

end Finding

/-- A character that all characters of a text differ from in some respect is not in the text. -/
theorem not_mem_of_forall {p : Char → Bool} {chars : List Char} (all : ∀ d ∈ chars, p d = true)
    {c : Char} (none : p c = false) : c ∉ chars := by
  intro member
  rw [all c member] at none
  cases none

theorem isDigit_of_mem_toString {n : Nat} : ∀ d ∈ (toString n).toList, d.isDigit = true := by
  intro d member
  rw [Nat.toString_eq_ofList_toDigits, String.toList_ofList] at member
  exact Nat.isDigit_of_mem_toDigits (by decide) (by decide) member

/-- No separator of a compact line is inside a number. -/
theorem not_mem_toString {c : Char} (noDigit : c.isDigit = false) (n : Nat) :
    c ∉ (toString n).toList :=
  not_mem_of_forall isDigit_of_mem_toString noDigit

theorem eq_of_toString_eq {m n : Nat} (same : (toString m).toList = (toString n).toList) :
    m = n := by
  rw [Nat.toString_eq_ofList_toDigits, Nat.toString_eq_ofList_toDigits, String.toList_ofList,
    String.toList_ofList] at same
  rw [← Nat.ofDigitChars_ten_toDigits (n := m), same, Nat.ofDigitChars_ten_toDigits]

theorem Severity.isLower_of_mem_name (s : Severity) : ∀ d ∈ s.name.toList, d.isLower = true := by
  apply List.all_eq_true.mp
  cases s <;> decide

theorem Severity.name_injective {a b : Severity} (same : a.name = b.name) : a = b := by
  have found := ofName?_name a
  rw [same, ofName?_name] at found
  exact (Option.some.inj found).symm

theorem RuleKind.isAlphanum_of_mem_code (kind : RuleKind) :
    ∀ d ∈ kind.code.toList, d.isAlphanum = true := by
  apply List.all_eq_true.mp
  cases kind <;> decide

theorem RuleKind.code_injective {a b : RuleKind} (same : a.code = b.code) : a = b := by
  have found := lookup?_code a
  rw [same, lookup?_code] at found
  exact (Option.some.inj found).symm

namespace Finding

variable {f g : Finding}

/-- The marks of a line of the compact form, from its end. -/
theorem toList_display (f : Finding) : f.display.toList =
    (((((f.location.file.toList ++ ':' :: (toString f.location.line).toList) ++
      ':' :: (toString f.location.column).toList) ++ ':' :: []) ++ ' ' :: f.severity.name.toList ++
        [' ']) ++ '[' :: f.kind.code.toList) ++ ']' :: ' ' :: f.message.toList := by
  simp [display]

/-- A line of the compact form, read from its end, tells the finding. -/
theorem told_eq_of_display_eq (plain : f.Plain) (alsoPlain : g.Plain)
    (same : f.display = g.display) : f.told = g.told := by
  have noBracket (kind : RuleKind) : '[' ∉ kind.code.toList :=
    not_mem_of_forall kind.isAlphanum_of_mem_code rfl
  have noBlank (s : Severity) : ' ' ∉ s.name.toList := not_mem_of_forall s.isLower_of_mem_name rfl
  have noColon := not_mem_toString (c := ':') rfl
  have chars := congrArg String.toList same
  rw [toList_display, toList_display] at chars
  obtain ⟨chars, messages⟩ := Text.eq_of_append_cons_eq (by simpa using plain.bracket)
    (by simpa using alsoPlain.bracket) chars
  obtain ⟨chars, codes⟩ := Text.eq_of_append_cons_eq (noBracket _) (noBracket _) chars
  obtain ⟨chars, severities⟩ :=
    Text.eq_of_append_cons_eq (noBlank _) (noBlank _) (List.append_cancel_right chars)
  obtain ⟨chars, -⟩ := Text.eq_of_append_cons_eq List.not_mem_nil List.not_mem_nil chars
  obtain ⟨chars, columns⟩ := Text.eq_of_append_cons_eq (noColon _) (noColon _) chars
  obtain ⟨files, lines⟩ := Text.eq_of_append_cons_eq (noColon _) (noColon _) chars
  have messages := String.toList_inj.mp (List.cons.inj messages).2
  have kinds := RuleKind.code_injective (String.toList_inj.mp codes)
  have severities := Severity.name_injective (String.toList_inj.mp severities)
  rw [told, told, String.toList_inj.mp files, eq_of_toString_eq lines, eq_of_toString_eq columns,
    severities, kinds, messages]

theorem display_eq_of_told_eq (same : f.told = g.told) : f.display = g.display := by
  simp only [told, Prod.mk.injEq] at same
  obtain ⟨files, lines, columns, severities, kinds, messages⟩ := same
  rw [display, display, files, lines, columns, severities, kinds, messages]

/-- A compact line tells exactly the file, the place, the severity, the code and the message. -/
theorem display_eq_iff (plain : f.Plain) (alsoPlain : g.Plain) :
    f.display = g.display ↔ f.told = g.told :=
  ⟨told_eq_of_display_eq plain alsoPlain, display_eq_of_told_eq⟩

theorem map_display_eq_iff {findings others : List Finding} (plain : ∀ f ∈ findings, f.Plain)
    (alsoPlain : ∀ f ∈ others, f.Plain) :
    findings.map display = others.map display ↔ findings.map told = others.map told := by
  induction findings generalizing others with
  | nil => cases others <;> simp
  | cons f rest ih =>
    cases others with
    | nil => simp
    | cons g others =>
      obtain ⟨first, plain⟩ := List.forall_mem_cons.mp plain
      obtain ⟨alsoFirst, alsoPlain⟩ := List.forall_mem_cons.mp alsoPlain
      rw [List.map_cons, List.map_cons, List.map_cons, List.map_cons, List.cons.injEq,
        List.cons.injEq, display_eq_iff first alsoFirst, ih plain alsoPlain]

theorem display_ne_empty (f : Finding) : f.display ≠ "" := by
  intro empty
  have chars := f.toList_display
  simp [empty] at chars

theorem feed_not_mem_display (said : '\n' ∉ f.message.toList)
    (named : '\n' ∉ f.location.file.toList) : '\n' ∉ f.display.toList := by
  have digits := not_mem_toString (c := '\n') rfl
  have severity : '\n' ∉ f.severity.name.toList :=
    not_mem_of_forall f.severity.isLower_of_mem_name rfl
  have code : '\n' ∉ f.kind.code.toList := not_mem_of_forall f.kind.isAlphanum_of_mem_code rfl
  simp [toList_display, -Nat.toString_eq_repr, named, said, digits, severity, code]

/-- Whether a built-in rule makes a finding on some line, with or without a severity that the
settings give. -/
def OfBuiltIn (f : Finding) : Prop :=
  ∃ active : ActiveRule, active.rule.BuiltIn ∧ ∃ line, f ∈ active.check line

end Finding

theorem not_mem_append {c : Char} {front back : String} (inFront : c ∉ front.toList)
    (inBack : c ∉ back.toList) : c ∉ (front ++ back).toList := by
  rw [String.toList_append, List.mem_append, not_or]
  exact ⟨inFront, inBack⟩

namespace Rules

theorem Indentation.not_mem_message {c : Char} (noDigit : c.isDigit = false)
    (front : c ∉ "indentation of ".toList)
    (middle : c ∉ " character(s) is not a multiple of ".toList) (width : Nat) (unit : IndentUnit) :
    c ∉ (message width unit).toList := by
  have digits := not_mem_toString noDigit
  have counted := not_mem_append front (digits width)
  exact not_mem_append (not_mem_append counted middle) (digits unit.size)

theorem MethodNaming.not_mem_message {c : Char} (noInner : isInner c = false)
    (front : c ∉ "method name \x60".toList) (back : c ∉ "\x60 is not PascalCase".toList)
    {name : List Char} (identifier : IsIdentifier name) :
    c ∉ (message (String.ofList name)).toList := by
  have inName : c ∉ (String.ofList name).toList := by
    rw [String.toList_ofList]
    exact not_mem_of_forall identifier.inner noInner
  exact not_mem_append (not_mem_append front inName) back

end Rules

theorem Rule.BuiltIn.plain_of_mem_check {rule : Rule} (builtIn : rule.BuiltIn) {line : SourceLine}
    {f : Finding} (found : f ∈ rule.check line) : f.Plain := by
  cases builtIn with
  | indentation unit severity =>
    obtain ⟨-, rfl⟩ := Rules.Indentation.mem_check_iff.mp found
    exact ⟨Rules.Indentation.not_mem_message rfl (by decide) (by decide) _ unit,
      Rules.Indentation.not_mem_message rfl (by decide) (by decide) _ unit⟩
  | variableNaming severity =>
    change f ∈ Rules.VariableNaming.check severity line at found
    rw [Rules.VariableNaming.check_eq_nil] at found
    cases found
  | methodNaming severity =>
    obtain ⟨_, name, site, -, rfl⟩ := Rules.MethodNaming.mem_check_iff.mp found
    exact ⟨Rules.MethodNaming.not_mem_message rfl (by decide) (by decide) site.identifier,
      Rules.MethodNaming.not_mem_message rfl (by decide) (by decide) site.identifier⟩

theorem Finding.OfBuiltIn.plain {f : Finding} (ofBuiltIn : f.OfBuiltIn) : f.Plain := by
  obtain ⟨active, builtIn, line, found⟩ := ofBuiltIn
  rw [ActiveRule.check_eq] at found
  obtain ⟨g, member, rfl⟩ := List.mem_map.mp found
  exact ⟨(builtIn.plain_of_mem_check member).bracket, (builtIn.plain_of_mem_check member).feed⟩

namespace Summary

/-- Whether an analyzer over built-in rules, whatever its settings, comes to a summary. -/
def OfBuiltIn (s : Summary) : Prop :=
  ∃ rules settings sources, (∀ rule ∈ rules, rule.BuiltIn) ∧
    s = (Analyzer.build rules settings).run sources

namespace OfBuiltIn

variable {s : Summary} (ofBuiltIn : s.OfBuiltIn)
include ofBuiltIn

/-- A finding of a summary is about the file of a report, and a built-in rule makes it. -/
theorem of_mem_findings {f : Finding} (member : f ∈ s.findings) :
    f.OfBuiltIn ∧ ∃ report ∈ s.reports, f.location.file = report.file := by
  obtain ⟨rules, settings, sources, builtIn, rfl⟩ := ofBuiltIn
  obtain ⟨report, reported, member⟩ := List.mem_flatMap.mp member
  have analyzed := reported
  rw [Analyzer.run_eq] at analyzed
  obtain ⟨⟨file, content⟩, -, rfl⟩ := List.mem_map.mp analyzed
  obtain ⟨line, cut, found⟩ := List.mem_flatMap.mp member
  obtain ⟨active, kept, found⟩ := List.mem_flatMap.mp found
  have builtIn := builtIn active.rule (Analyzer.mem_of_mem_build kept)
  refine ⟨⟨active, builtIn, line, found⟩, _, reported, ?_⟩
  rw [ActiveRule.file_of_mem_check builtIn.tidy found]
  exact (SourceLine.number_of_mem_numberFrom cut).1

theorem plain_of_mem_findings : ∀ f ∈ s.findings, f.Plain :=
  fun _ member => (ofBuiltIn.of_mem_findings member).1.plain

/-- The lines of the compact form are not empty and have no line feed in them. -/
theorem solid_of_mem_displays (named : ∀ report ∈ s.reports, '\n' ∉ report.file.toList) :
    ∀ line ∈ s.findings.map Finding.display, line ≠ "" ∧ '\n' ∉ line.toList := by
  intro line isLine
  obtain ⟨f, member, rfl⟩ := List.mem_map.mp isLine
  obtain ⟨finding, report, reported, file⟩ := ofBuiltIn.of_mem_findings member
  refine ⟨f.display_ne_empty, f.feed_not_mem_display finding.plain.feed ?_⟩
  rw [file]
  exact named report reported

end OfBuiltIn

end Summary

/-- The compact form of a summary of the built-in rules, where no name of a file has a line feed in
it, tells the sequence of its findings, all but the texts that they are about, and nothing else. One
line of it tells one finding, whatever the name of the file. -/
theorem compact_tells_findings :
    (∀ s t : Summary, s.OfBuiltIn → t.OfBuiltIn →
      (∀ report ∈ s.reports, '\n' ∉ report.file.toList) →
      (∀ report ∈ t.reports, '\n' ∉ report.file.toList) →
      (s.render .compact = t.render .compact ↔
        s.findings.map Finding.told = t.findings.map Finding.told)) ∧
      ∀ f g : Finding, f.OfBuiltIn → g.OfBuiltIn → (f.display = g.display ↔ f.told = g.told) := by
  constructor
  · intro s t ofBuiltIn alsoOfBuiltIn named alsoNamed
    rw [← Finding.map_display_eq_iff ofBuiltIn.plain_of_mem_findings
      alsoOfBuiltIn.plain_of_mem_findings]
    constructor
    · intro same
      have lines := String.toList_inj.mpr same
      simp only [Summary.render, String.toList_append, List.append_cancel_right_eq,
        String.toList_inj] at lines
      exact Text.intercalate_injective rfl (ofBuiltIn.solid_of_mem_displays named)
        (alsoOfBuiltIn.solid_of_mem_displays alsoNamed) lines
    · intro same
      rw [Summary.render, Summary.render, same]
  · intro f g ofBuiltIn alsoOfBuiltIn
    exact Finding.display_eq_iff ofBuiltIn.plain alsoOfBuiltIn.plain

/-- The name of a file looks like the beginning of a line, and the two texts of the file differ in
what the compact form leaves out. -/
theorem compact_tells_findings_of_misleading_name :
    let name := "a:1:1: error [SL001] b"
    let analyzer := Analyzer.build [Rules.indentation ⟨4, by decide⟩] .default
    let s := analyzer.run [⟨name, .text "  x"⟩]
    let t := analyzer.run [⟨"c", .text "x"⟩, ⟨name, .text "  y"⟩, ⟨"d", .unreadable ""⟩]
    s.OfBuiltIn ∧ t.OfBuiltIn ∧ (∀ report ∈ s.reports, '\n' ∉ report.file.toList) ∧
      (∀ report ∈ t.reports, '\n' ∉ report.file.toList) ∧ s ≠ t ∧
      s.findings.map Finding.told = [(name, 1, 1, .error, .indentation,
        "indentation of 2 character(s) is not a multiple of 4")] ∧
      s.render .compact = t.render .compact ∧
      ∀ f ∈ s.findings, ∀ g ∈ t.findings,
        f.OfBuiltIn ∧ g.OfBuiltIn ∧ f.told = g.told ∧ f.display = g.display := by
  intro name analyzer s t
  have builtIn : ∀ rule ∈ [Rules.indentation ⟨4, by decide⟩], rule.BuiltIn := by
    intro rule member
    rw [List.mem_singleton.mp member]
    exact .indentation _ _
  have ofBuiltIn : s.OfBuiltIn := ⟨_, _, _, builtIn, rfl⟩
  have alsoOfBuiltIn : t.OfBuiltIn := ⟨_, _, _, builtIn, rfl⟩
  let message := "indentation of 2 character(s) is not a multiple of 4"
  have built : analyzer = ⟨[⟨Rules.indentation ⟨4, by decide⟩, none⟩]⟩ :=
    congrArg Analyzer.mk (List.mergeSort_singleton _)
  have first : s = ⟨[⟨name, [⟨.indentation, .error, ⟨name, 1, 1⟩, "  x", message⟩]⟩], []⟩ := by
    simp only [s, built, Analyzer.run_eq]
    decide
  have second : t = ⟨[⟨"c", []⟩,
      ⟨name, [⟨.indentation, .error, ⟨name, 1, 1⟩, "  y", message⟩]⟩], [⟨"d", ""⟩]⟩ := by
    simp only [t, built, Analyzer.run_eq]
    decide
  have named : ∀ report ∈ s.reports, '\n' ∉ report.file.toList := by
    rw [first]
    decide
  have alsoNamed : ∀ report ∈ t.reports, '\n' ∉ report.file.toList := by
    rw [second]
    decide
  have told : s.findings.map Finding.told = t.findings.map Finding.told := by
    rw [first, second]
    rfl
  obtain ⟨summaries, findings⟩ := compact_tells_findings
  refine ⟨ofBuiltIn, alsoOfBuiltIn, named, alsoNamed, ?_, ?_,
    (summaries s t ofBuiltIn alsoOfBuiltIn named alsoNamed).mpr told, ?_⟩
  · rw [first, second]
    decide
  · rw [first]
    rfl
  · intro f memberF g memberG
    have ofRule := (ofBuiltIn.of_mem_findings memberF).1
    have alsoOfRule := (alsoOfBuiltIn.of_mem_findings memberG).1
    rw [first] at memberF
    rw [second] at memberG
    obtain rfl := List.mem_singleton.mp memberF
    obtain rfl := List.mem_singleton.mp memberG
    exact ⟨ofRule, alsoOfRule, rfl, (findings _ _ ofRule alsoOfRule).mpr rfl⟩

end LineLint
