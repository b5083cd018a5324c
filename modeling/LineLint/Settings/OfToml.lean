import LineLint.Settings
import LineLint.Toml.Document
import LineLint.Toml.Printer

/-! # Settings from TOML

Keys that mean nothing are ignored, and what is not set keeps its default; a value of the wrong
type makes the whole document no settings. The scan section may also be an array, which then gives
its values in order.
-/

namespace LineLint

open Toml (Value)

/-- The severity that a value names: a string, or a table whose only key is the name and whose
value there is empty. -/
def Severity.ofToml? : Value → Option Severity
  | .string word => ofName? word
  | .table [(word, .table [])] => ofName? word
  | .table [(word, .array [])] => ofName? word
  | _ => none

namespace Settings

def string? : Value → Option String
  | .string text => some text
  | _ => none

def strings? : Value → Option (List String)
  | .array items => items.mapM string?
  | _ => none

def boolean? : Value → Option Bool
  | .boolean value => some value
  | _ => none

/-- The number that a value is, if it is an integer and not negative. -/
def natural? : Value → Option Nat
  | .integer (.ofNat n) => some n
  | _ => none

/-- What `read` makes of a value, or a default where there is none. -/
def readOr {α : Type} (missing : α) (read : Value → Option α) : Option Value → Option α
  | none => some missing
  | some value => read value

def scan? (root extensions exclude respectGitignore parallelism : Option Value) :
    Option ScanSettings := do
  let missing : ScanSettings := {}
  let root ← readOr missing.root string? root
  let extensions ← readOr missing.extensions strings? extensions
  let exclude ← readOr missing.exclude strings? exclude
  let respectGitignore ← readOr missing.respectGitignore boolean? respectGitignore
  let parallelism ← readOr missing.parallelism (fun value => (natural? value).map some) parallelism
  some ⟨root, extensions, exclude, respectGitignore, parallelism⟩

def scanOfToml? : Value → Option ScanSettings
  | .table entries =>
    let find := Value.find? entries
    scan? (find "root") (find "extensions") (find "exclude") (find "respect_gitignore")
      (find "parallelism")
  | .array items => scan? items[0]? items[1]? items[2]? items[3]? items[4]?
  | .datetime _ => some {}
  | _ => none

mutual

/-- The value of an option. A table whose first key is the private key of datetimes must be a
datetime. -/
def optionValue? : Value → Option Value
  | .array items => (optionValues? items).map .array
  | .table entries =>
    match entries with
    | (key, value) :: rest =>
      if key = Toml.datetimeKey then
        match value, rest with
        | .string text, [] => (Toml.Datetime.ofText? text).map .datetime
        | _, _ => none
      else (optionEntries? entries).map .table
    | [] => some (.table [])
  | value => some value

def optionValues? : List Value → Option (List Value)
  | [] => some []
  | value :: rest => do
    let value ← optionValue? value
    some (value :: (← optionValues? rest))

def optionEntries? : List (String × Value) → Option (List (String × Value))
  | [] => some []
  | (key, value) :: rest => do
    let value ← optionValue? value
    some ((key, value) :: (← optionEntries? rest))

end

def ruleOfEntries? (entries : List (String × Value)) : Option RuleSettings := do
  let find := Value.find? entries
  let enabled ← readOr none (fun value => (boolean? value).map some) (find "enabled")
  let severity ← readOr none (fun value => (Severity.ofToml? value).map some) (find "severity")
  let options ← optionEntries?
    (entries.filter fun entry => entry.1 != "enabled" && entry.1 != "severity")
  some ⟨enabled, severity, options⟩

def ruleOfToml? : Value → Option RuleSettings
  | .table entries => ruleOfEntries? entries
  | .datetime value => some { options := [(Toml.datetimeKey, .string value.text)] }
  | _ => none

def rulesOfToml? : Value → Option (List (String × RuleSettings))
  | .table entries =>
    entries.mapM fun (key, value) => (ruleOfToml? value).map fun rule => (key, rule)
  | _ => none

def ofEntries? (entries : List (String × Value)) : Option Settings := do
  let find := Value.find? entries
  let failOn ← readOr none (fun value => (Severity.ofToml? value).map some) (find "fail_on")
  let scan ← readOr {} scanOfToml? (find "analyzer")
  let rules ← readOr [] rulesOfToml? (find "rules")
  some ⟨failOn, scan, rules⟩

def ofText? (text : List Char) : Option Settings := do
  ofEntries? (← Toml.Document.ofText? text)

end Settings

end LineLint
