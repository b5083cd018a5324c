import LineLint.RuleSet

/-! # The table of rules

The built-in rules are listed as a table, in the order in which they run, with a hint how some of
them are chosen.
-/

namespace LineLint

namespace Listing

/-- Fills a cell of a table up to a width, and leaves a longer one as it is. -/
def padded (width : Nat) (text : String) : String :=
  text ++ String.ofList (List.replicate (width - text.length) ' ')

def row (code name severity description : String) : String :=
  padded 8 code ++ " " ++ padded 18 name ++ " " ++ padded 10 severity ++ " " ++ description

def ruleRow (rule : Rule) : String :=
  row rule.kind.code rule.kind.name rule.severity.name rule.description

def lines (set : RuleSet) : List String :=
  ["Available rules (run in this order):", "", row "Code" "Name" "Severity" "Description",
    String.ofList (List.replicate 80 '-')] ++
    set.rules.map ruleRow ++
    ["", "Use --rules to run a subset, by name or code, e.g.:",
      "  style-lint check --rules indentation,method-naming",
      "  style-lint check --rules SL001,SL003"]

/-- What is printed of the built-in rules. -/
def text : String := String.join ((lines RuleSet.default).map (· ++ "\n"))

end Listing

end LineLint
