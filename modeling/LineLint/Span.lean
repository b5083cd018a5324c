import LineLint.Text.Column

/-! # Stretches of a line

What a rule finds in a line is a stretch of it, known by where it starts and by what it says.
-/

namespace LineLint

/-- A stretch of a line: where it starts, in bytes, and its characters. -/
structure Span where
  start : Nat
  chars : List Char
deriving DecidableEq, Repr

namespace Span

/-- Where a stretch ends, in bytes. -/
def stop (span : Span) : Nat := span.start + Text.byteLength span.chars

def text (span : Span) : String := String.ofList span.chars

end Span

end LineLint
