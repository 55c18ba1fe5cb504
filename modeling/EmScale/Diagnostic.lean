/-
  EmScale/Diagnostic.lean
  =======================
  **Faults as an editor shows them.**

  A diagnostic gives the bytes of a fault and the line and column of its start, counted from
  one.  A fault that is not in the stylesheet has no place, which all zeros stand for, and no
  fixed wording.
-/
import EmScale.Sheet.Reader

namespace EmScale

/-- A fault to show. -/
structure Diagnostic where
  message : Option Text := none
  start : Nat := 0
  stop : Nat := 0
  line : Nat := 0
  column : Nat := 0
deriving DecidableEq, Repr, Inhabited

def ParseError.diagnostic (error : ParseError) : Diagnostic where
  message := error.message
  start := error.span.start.byte
  stop := error.span.stop.byte
  line := error.span.start.line + 1
  column := error.span.start.column + 1

/-- The faults of a stylesheet: none, or the first one (`check`). -/
def Stylesheet.check (source : Text) : List Diagnostic :=
  match Stylesheet.parse source with
  | .ok _ => []
  | .error error => [error.diagnostic]

end EmScale
