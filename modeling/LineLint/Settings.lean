import LineLint.RuleKind
import LineLint.Severity
import LineLint.Toml.Value

/-! # Settings

Settings say where to scan, which rules apply and how severe their findings are, and when a run
fails. A rule is governed by one section alone: the one under its name if there is one, and
otherwise the one under its code.
-/

namespace LineLint

/-- Which files are scanned. -/
structure ScanSettings where
  root : String := "."
  /-- Extensions without their dot. -/
  extensions : List String := ["cs"]
  /-- Patterns of files to leave out. -/
  exclude : List String := ["**/bin/**", "**/obj/**"]
  respectGitignore : Bool := true
  /-- The number of workers, if it is limited. -/
  parallelism : Option Nat := none
deriving DecidableEq, Repr

structure RuleSettings where
  enabled : Option Bool := none
  severity : Option Severity := none
  /-- What else is set for the rule. -/
  options : List (String × Toml.Value) := []
deriving DecidableEq, Repr

structure Settings where
  failOn : Option Severity := none
  scan : ScanSettings := {}
  /-- The sections of rules, under names, codes, or anything else. -/
  rules : List (String × RuleSettings) := []
deriving DecidableEq, Repr

namespace Settings

def default : Settings := {}

def sectionAt? (settings : Settings) (key : String) : Option RuleSettings :=
  (settings.rules.find? fun entry => entry.1 == key).map Prod.snd

/-- The section that governs a kind of rule. -/
def section? (settings : Settings) (kind : RuleKind) : Option RuleSettings :=
  (settings.sectionAt? kind.name).or (settings.sectionAt? kind.code)

def isEnabled (settings : Settings) (kind : RuleKind) : Bool :=
  ((settings.section? kind).bind RuleSettings.enabled).getD true

/-- The severity that findings of a kind are given, if it is set. -/
def severityFor? (settings : Settings) (kind : RuleKind) : Option Severity :=
  (settings.section? kind).bind RuleSettings.severity

def threshold (settings : Settings) : Severity := settings.failOn.getD .error

/-- An option of the section that governs a kind of rule. -/
def option? (settings : Settings) (kind : RuleKind) (key : String) : Option Toml.Value :=
  (settings.section? kind).bind fun rule => Toml.Value.find? rule.options key

theorem section?_eq_of_name {settings : Settings} {kind : RuleKind} {rule : RuleSettings}
    (named : settings.sectionAt? kind.name = some rule) : settings.section? kind = some rule := by
  simp [section?, named]

/-- The code of a rule is looked up only where its name has no section. -/
theorem section?_eq_of_no_name {settings : Settings} {kind : RuleKind}
    (unnamed : settings.sectionAt? kind.name = none) :
    settings.section? kind = settings.sectionAt? kind.code := by
  simp [section?, unnamed]

end Settings

end LineLint
