import LineLint.CommandLine
import LineLint.Listing
import LineLint.Settings.Create

/-! # The program

A run of the program reads its arguments, carries out the command, and says what it prints, what
went wrong, and how it ends.
-/

namespace LineLint

/-- What a run of the program leaves. -/
structure ProgramResult where
  status : Status
  /-- What is printed. -/
  printed : String
  /-- What is said about a failure. -/
  complaint : String
  workspace : Workspace

namespace Program

def versionText : String := "style-lint 0.1.0\n"

def helpText : String :=
  "Line-oriented indentation and naming linter\n\n" ++
    "Usage: style-lint [OPTIONS] <COMMAND>\n\n" ++
    "Commands:\n" ++
    "  check       Check source files for style issues\n" ++
    "  list-rules  List available rules\n" ++
    "  init        Initialize configuration file\n" ++
    "  help        Print this message\n\n" ++
    "Options:\n" ++
    "  -v, --verbose          Enable verbose output\n" ++
    "  -c, --config <CONFIG>  Path to configuration file [env: STYLE_LINT_CONFIG]\n" ++
    "  -h, --help             Print help\n" ++
    "  -V, --version          Print version\n"

/-- What is said about an error and what caused it. -/
def complaintOf (chain : List String) : String :=
  String.join ("style-lint failed\n" :: chain.map fun cause => "  Cause: " ++ cause ++ "\n")

/-- The end of a run that printed something and changed no file. -/
def printing (w : Workspace) (status : Status) (text : String) : ProgramResult :=
  ⟨status, text, "", w⟩

/-- The end of a run that failed. -/
def failing (w : Workspace) (chain : List String) : ProgramResult :=
  ⟨.error, "", complaintOf chain, w⟩

def perform (w : Workspace) (invocation : Invocation) : ProgramResult :=
  match invocation.command with
  | .check options =>
    match w.check options invocation.settings with
    | .ok (status, text) => printing w status text
    | .error error => failing w error.chain
  | .listRules => printing w .success Listing.text
  | .create force =>
    match Settings.create w force with
    | .ok created => printing created .success Settings.createdText
    | .error error => failing w error.chain

/-- Runs the program with arguments, where `fallback` is the settings file that the environment
names. -/
def run (w : Workspace) (arguments : List String) (fallback : Option String) : ProgramResult :=
  match CommandLine.parse arguments fallback with
  | .ok invocation => perform w invocation
  | .error .usage => printing w .error ""
  | .error .help => printing w .success helpText
  | .error .version => printing w .success versionText

end Program

end LineLint
