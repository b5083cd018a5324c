import LineLint.Settings.Starter
import LineLint.Text.Utf8
import LineLint.Workspace

/-! # Creating a settings file

A new settings file is written into the working directory. What is there already is replaced only
if that is asked for.
-/

namespace LineLint.Settings

/-- Why no settings file is created. -/
inductive CreateError where
  | exists
  | unwritable (error : FileError)
deriving DecidableEq, Repr

def newFile : Path := ⟨"./style-lint.toml"⟩

/-- The words for an error and for what caused it. -/
def CreateError.chain : CreateError → List String
  | .exists =>
    ["Configuration file already exists at " ++ newFile.text ++ ". Use --force to overwrite."]
  | .unwritable error => ["Failed to write " ++ newFile.text, error.message]

def create (w : Workspace) (force : Bool) : Except CreateError Workspace :=
  if w.leadsTo newFile && !force then .error .exists
  else
    match w.write newFile (Text.Utf8.encode starter.toList) with
    | .ok written => .ok written
    | .error error => .error (.unwritable error)

/-- What is printed when a settings file was created. -/
def createdText : String :=
  "Created style-lint.toml\n\nNext steps:\n  1. Edit style-lint.toml to configure rules\n" ++
    "  2. Run: style-lint check\n"

end LineLint.Settings
