import LineLint.Rule

/-! # Occurrences of a text

A rule of any kind that reports every occurrence of a fixed text in a line, from left to right
and without overlaps. The empty text occurs before every character and at the end.
-/

namespace LineLint.Rules

namespace Occurrence

/-- The occurrences of `needle` in a text from a byte offset on; the next `skip` characters belong
to an occurrence that was already found. -/
def spansFrom (needle : List Char) (offset skip : Nat) : List Char → List Span
  | [] => if needle.isEmpty then [⟨offset, []⟩] else []
  | c :: rest =>
    match skip with
    | skip + 1 => spansFrom needle (offset + c.utf8Size) skip rest
    | 0 =>
      if needle.isPrefixOf (c :: rest) then
        ⟨offset, needle⟩ :: spansFrom needle (offset + c.utf8Size) (needle.length - 1) rest
      else spansFrom needle (offset + c.utf8Size) 0 rest

def spans (needle text : List Char) : List Span := spansFrom needle 0 0 text

end Occurrence

def occurrence (kind : RuleKind) (needle : String) : Rule where
  kind := kind
  description := ""
  severity := .error
  check line :=
    (Occurrence.spans needle.toList line.text.toList).map fun span =>
      line.findingAt kind .error span "found"

end LineLint.Rules
