/-
  PhpCheck/Code/Span.lean
  =======================
  **Source positions** — where a piece of code stands.  Lines and columns count
  from one; code that stands in no file has line zero, and no line to report.
-/

namespace PhpCheck

structure Span where
  startLine : Nat := 0
  startColumn : Nat := 0
  endLine : Nat := 0
  endColumn : Nat := 0
deriving DecidableEq, Repr, Inhabited

namespace Span

/-- The empty part at one position. -/
def point (line column : Nat) : Span := ⟨line, column, line, column⟩

/-- The line to report: the first one, if there is any. -/
def line? (s : Span) : Option Nat := if 0 < s.startLine then some s.startLine else none

def text (s : Span) : String := toString s.startLine ++ ":" ++ toString s.startColumn

end Span

end PhpCheck
