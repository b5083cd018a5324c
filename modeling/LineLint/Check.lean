import LineLint.Analyzer
import LineLint.Disk
import LineLint.OutputFormat
import LineLint.RuleSet
import LineLint.Settings.Location

/-! # Checking files

A check finds the settings, changes them as the options ask, discovers and analyzes the files, and
prints the summary. It fails when a finding reaches the threshold, and it is an error when no file
could be analyzed.
-/

namespace LineLint

/-- What a check is asked to do. -/
structure CheckOptions where
  path : Option Path := none
  format : OutputFormat := .text
  /-- The rules to run, between commas. -/
  rules : Option String := none
  /-- More patterns to exclude. -/
  exclude : List String := []
  /-- The extensions that replace those of the settings, if there are any. -/
  extensions : List String := []
  indentUnit : Option Nat := none
deriving DecidableEq, Repr

/-- What a check came to. -/
inductive Status where
  | success
  | failure
  | error
deriving DecidableEq, Repr

namespace Status

def name : Status → String
  | success => "success"
  | failure => "failure"
  | error => "error"

/-- The number of a status for the caller of the program. -/
def code : Status → Nat
  | success => 0
  | failure => 1
  | error => 2

/-- The status of a run under a threshold. -/
def ofSummary (summary : Summary) (threshold : Severity) : Status :=
  match summary.outcome with
  | .noFiles => error
  | _ => if summary.hasViolationsAt threshold then failure else success

end Status

inductive CheckError where
  | settings (error : SettingsError)
  | unit (error : RuleSet.UnitError)
  | noKnownRule (filter : String)
  | discovery (root : Path) (error : DiscoveryError)

/-- The words for an error and for what caused it. -/
def CheckError.chain : CheckError → List String
  | settings error => error.chain
  | unit error => ["Failed to build rules", error.message]
  | noKnownRule filter => ["No known rule selected by --rules " ++ filter]
  | discovery root error => ("Failed to discover files under " ++ root.text) :: error.chain

namespace CheckOptions

def withoutDots (extension : String) : String :=
  String.ofList (extension.toList.dropWhile (· == '.'))

def apply (options : CheckOptions) (settings : Settings) : Settings :=
  let scan := settings.scan
  { settings with
    scan :=
      { scan with
        exclude := scan.exclude ++ options.exclude
        extensions :=
          if options.extensions.isEmpty then scan.extensions
          else options.extensions.map withoutDots } }

/-- The kinds of rules that a filter names, each once, in the order in which they are first named. -/
def kindsOf (filter : String) : List RuleKind :=
  (((Text.split ',' filter.toList).map Text.trim).filterMap fun word =>
    if word.isEmpty then none else RuleKind.lookup? word).eraseDups

def ruleSet (options : CheckOptions) (settings : Settings) : Except CheckError RuleSet := do
  let set ←
    (match options.indentUnit with
      | some size => RuleSet.ofUnit size
      | none => RuleSet.ofSettings settings).mapError CheckError.unit
  match options.rules with
  | none => .ok set
  | some filter =>
    match kindsOf filter with
    | [] => .error (.noKnownRule filter)
    | kinds => .ok (set.only kinds)

/-- The path whose settings count. -/
def project (options : CheckOptions) : Path := options.path.getD ⟨"."⟩

/-- The path to scan. -/
def root (options : CheckOptions) (settings : Settings) : Path :=
  options.path.getD ⟨settings.scan.root⟩

end CheckOptions

/-- The summary of a check under some settings, unless the path to scan leads nowhere. The rules that
the options and the settings make are changed before they run. -/
def Disk.summaryWith? (disk : Disk) (change : RuleSet → RuleSet) (options : CheckOptions)
    (settings : Settings) : Except CheckError (Option Summary) := do
  let settings := options.apply settings
  let root := options.root settings
  if !disk.leadsTo root then return none
  let set ← options.ruleSet settings
  let paths ← (Discovery.filesBy disk settings.scan root).mapError (CheckError.discovery root)
  let sources := paths.map (Discovery.loadBy disk.read root)
  return some ((Analyzer.build (change set).rules settings).run sources)

/-- The summary of a check with the rules as they are. -/
def Disk.summary? (disk : Disk) (options : CheckOptions) (settings : Settings) :
    Except CheckError (Option Summary) := disk.summaryWith? id options settings

namespace Workspace

/-- The status of a check and what it prints. The settings come from the workspace, and the files from
a disk. -/
def checkWith (w : Workspace) (disk : Disk) (change : RuleSet → RuleSet) (options : CheckOptions)
    (file : Option Path) : Except CheckError (Status × String) := do
  let location := SettingsLocation.find w options.project file
  let settings ← (location.load w).mapError CheckError.settings
  match ← disk.summaryWith? change options settings with
  | none => return (.error, "")
  | some summary =>
    return (Status.ofSummary summary settings.threshold, summary.render options.format)

def checkBy (w : Workspace) (disk : Disk) (options : CheckOptions) (file : Option Path) :
    Except CheckError (Status × String) := w.checkWith disk id options file

/-- The check of the files that lie in a workspace. -/
def check (w : Workspace) (options : CheckOptions) (file : Option Path) :
    Except CheckError (Status × String) := w.checkBy w.disk options file

def summary? (w : Workspace) (options : CheckOptions) (settings : Settings) :
    Except CheckError (Option Summary) := w.disk.summary? options settings

end Workspace

end LineLint
