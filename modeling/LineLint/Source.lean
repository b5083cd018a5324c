/-! # Sources

A source is a file as the analyzer gets it: with its text, or with the reason why it could not be
read. An unreadable file is never mistaken for an empty one.
-/

namespace LineLint

/-- What is known of the content of a file. -/
inductive Content where
  | text (text : String)
  | unreadable (reason : String)
deriving DecidableEq, Repr

/-- A file under the name that it has in reports. -/
structure Source where
  id : String
  content : Content
deriving DecidableEq, Repr

end LineLint
