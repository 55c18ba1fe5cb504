/-
  EmScale/Sheet/Statement.lean
  ============================
  **Statements: the text up to a brace or a semicolon.**

  A statement is the longest text without a brace or semicolon outside strings, comments,
  escapes and parentheses, less the blanks it ends with.  It is the selector of a rule, the
  prelude of an at-rule or a declaration, depending on what ends it.
-/
import EmScale.Sheet.Lexis
import EmScale.Sheet.Fault

namespace EmScale

/-- A statement, the blanks behind it, and the text from its end on: nothing, or the brace or
    semicolon that ends it and all that follows. -/
structure Statement where
  text : Text
  trailing : Text
  stop : Text
deriving DecidableEq, Repr

namespace Statement

/-- Reads a statement (`scan_statement`, with the errors of `skip_string`).  It fails if a string
    or a comment is still open at the end of the text. -/
def read (source : Text) : Except Fault Statement :=
  let (raw, stop) := Lexis.split {} source
  let final := Lexis.run {} raw
  if final.inString then
    .error ⟨.unterminatedString, Lexis.lastOutside {} source source, stop⟩
  else if final.inComment then
    .error ⟨.unterminatedComment, Lexis.lastOutside {} source source, stop⟩
  else .ok ⟨Text.trimEnd raw, Text.trailing raw, stop⟩

/-- A statement that is read is what the text starts with. -/
theorem read_append {source : Text} {statement : Statement} (h : read source = .ok statement) :
    statement.text ++ statement.trailing ++ statement.stop = source := by
  unfold read at h
  simp only at h
  split at h
  · cases h
  · split at h
    · cases h
    · cases h
      simp [Text.trimEnd_append_trailing, Lexis.split_append]

end Statement

end EmScale
