/-
  EmScale/Sheet/Fault.lean
  ========================
  **Why a text is not a stylesheet, and where.**

  While a text is read, a place is marked by the text that lies ahead of it, so that a
  fault found in a part of a text needs no knowledge of what stood before the part.  The
  positions that an error shows are measured in the whole text.
-/
import EmScale.Cursor

namespace EmScale

/-- What is wrong with a text. -/
inductive Cause where
  | unclosedBlock
  | unexpectedCloseBrace
  | unterminatedString
  | unterminatedComment
  /-- A statement that opens no block and has no colon. -/
  | missingColon (text : Text)
  /-- An `@` that no name follows. -/
  | missingAtRuleName
deriving DecidableEq, Repr

/-- A cause and its place: the text ahead of its start and the text ahead of its end. -/
structure Fault where
  cause : Cause
  start : Text
  stop : Text
deriving DecidableEq, Repr

/-- A cause and the stretch of text it is found at. -/
structure ParseError where
  cause : Cause
  span : Span
deriving DecidableEq, Repr

/-- A fault with its place measured in `source` (`error_at`). -/
def Fault.locate (source : Text) (fault : Fault) : ParseError :=
  ⟨fault.cause, Position.before source fault.start, Position.before source fault.stop⟩

/-! ### Wording -/

/-- What is wrong, in words. -/
def Cause.description : Cause → Text
  | unclosedBlock => "unclosed block".toList
  | unexpectedCloseBrace => "unexpected '\x7d'".toList
  | unterminatedString => "unterminated string literal".toList
  | unterminatedComment => "unterminated comment".toList
  | missingColon text => "missing ':' in declaration '".toList ++ text ++ ['\'']
  | missingAtRuleName => "at-rule without a name".toList

/-- What is wrong and where it starts; lines and columns are counted from one. -/
def ParseError.message (error : ParseError) : Text :=
  error.cause.description ++ " at line ".toList ++
    (toString (error.span.start.line + 1)).toList ++ ", column ".toList ++
    (toString (error.span.start.column + 1)).toList

end EmScale
