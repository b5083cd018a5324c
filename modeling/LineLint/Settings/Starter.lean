/-! # The starter settings file

The text that a new settings file gets. It sets every rule as it is anyway, so that a user can see
what there is to set.
-/

namespace LineLint.Settings

def starterLines : List String :=
  ["# style-lint configuration",
    "",
    "# Lowest severity that makes \x60style-lint check\x60 exit non-zero",
    "# (info | warning | error)",
    "fail_on = \"error\"",
    "",
    "[analyzer]",
    "# Root directory to analyze when no path is given",
    "root = \".\"",
    "",
    "# File extensions to check",
    "extensions = [\"cs\"]",
    "",
    "# Glob patterns to exclude, matched against root-relative paths",
    "exclude = [",
    "    \"**/bin/**\",",
    "    \"**/obj/**\",",
    "]",
    "",
    "# Respect .gitignore files",
    "respect_gitignore = true",
    "",
    "# Worker threads (default: one per core)",
    "# parallelism = 4",
    "",
    "# Each rule can be enabled/disabled and have its severity overridden",
    "",
    "[rules.indentation]",
    "enabled = true",
    "# severity = \"warning\"",
    "indent_unit = 4",
    "",
    "[rules.variable-naming]",
    "enabled = true",
    "",
    "[rules.method-naming]",
    "enabled = true"]

def starter : String := String.join (starterLines.map (· ++ "\n"))

end LineLint.Settings
