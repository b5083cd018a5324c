import LineLint.RuleKind
import LineLint.Rule
import LineLint.Settings
import LineLint.Source
import LineLint.Summary

/-! # The analyzer

An analyzer is a list of rules that are enabled by the settings, in the order of their kinds, each
with the severity that the settings give to what it finds. The analysis of a file depends on its
text alone, so files may be analyzed in any order; the reports come in the order of the files.
-/

namespace LineLint

/-- A rule with the severity that the settings give it, if they do. -/
structure ActiveRule where
  rule : Rule
  severity : Option Severity

def ActiveRule.check (active : ActiveRule) (line : SourceLine) : List Finding :=
  match active.severity with
  | none => active.rule.check line
  | some severity => (active.rule.check line).map fun f => { f with severity := severity }

/-- The rules that run on every line. -/
structure Analyzer where
  active : List ActiveRule

namespace Analyzer

/-- The analyzer of some rules under some settings. Rules of one kind keep their order. -/
def build (rules : List Rule) (settings : Settings) : Analyzer :=
  let enabled := rules.filter fun rule => settings.isEnabled rule.kind
  let active := enabled.map fun rule => (⟨rule, settings.severityFor? rule.kind⟩ : ActiveRule)
  ⟨active.mergeSort fun a b => a.rule.kind.rank ≤ b.rule.kind.rank⟩

def ruleCount (analyzer : Analyzer) : Nat := analyzer.active.length

def checkLine (analyzer : Analyzer) (line : SourceLine) : List Finding :=
  analyzer.active.flatMap fun active => active.check line

/-- The report on a file that is already cut into lines. -/
def analyzeLines (analyzer : Analyzer) (file : String) (texts : List String) : Report :=
  ⟨file, (SourceLine.ofTexts file texts).flatMap analyzer.checkLine⟩

def analyzeSource (analyzer : Analyzer) (file content : String) : Report :=
  ⟨file, (SourceLine.ofContent file content).flatMap analyzer.checkLine⟩

def analyze? (analyzer : Analyzer) (source : Source) : Option Report :=
  match source.content with
  | .text text => some (analyzer.analyzeSource source.id text)
  | .unreadable _ => none

/-- Workers analyze the sources with the numbers in `order`, one after the other, each into the
slot of its number. -/
def analyzeInOrder (analyzer : Analyzer) (sources : Array Source) (order : List Nat) :
    Array (Option Report) :=
  order.foldl
    (fun slots i => slots.setIfInBounds i (sources[i]?.bind analyzer.analyze?))
    (Array.replicate sources.size none)

/-- Gathers sources and their slots into a summary, and shows every report to `observe`. -/
def gather {σ : Type} (observe : σ → Report → σ) :
    Summary × σ → List (Source × Option Report) → Summary × σ
  | state, [] => state
  | (summary, seen), (source, slot) :: rest =>
    match slot, source.content with
    | some report, _ => gather observe (summary.push report, observe seen report) rest
    | none, .unreadable reason =>
      gather observe (summary.pushUnreadable source.id reason, seen) rest
    | none, .text _ => gather observe (summary, seen) rest

/-- Analyzes sources in the given order and gathers the results in the order of the sources. -/
def runInOrder {σ : Type} (analyzer : Analyzer) (order : List Nat) (sources : List Source)
    (observe : σ → Report → σ) (seen : σ) : Summary × σ :=
  let slots := (analyzer.analyzeInOrder sources.toArray order).toList
  gather observe (Summary.empty, seen) (sources.zip slots)

/-- Analyzes sources and shows every report to `observe`. -/
def runWith {σ : Type} (analyzer : Analyzer) (sources : List Source) (observe : σ → Report → σ)
    (seen : σ) : Summary × σ :=
  analyzer.runInOrder (List.range sources.length) sources observe seen

def run (analyzer : Analyzer) (sources : List Source) : Summary :=
  (analyzer.runWith sources (fun _ _ => ()) ()).1

end Analyzer

end LineLint
