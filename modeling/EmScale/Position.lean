/-
  EmScale/Position.lean
  =====================
  **Places in a text.**

  A position counts what has been read: bytes, lines and the characters of the current
  line, all from zero.  Only a line feed ends a line.
-/
import EmScale.Text

namespace EmScale

/-- A place in a text: its byte offset, the line it is on, and how many characters of that
    line stand before it. -/
structure Position where
  byte : Nat := 0
  line : Nat := 0
  column : Nat := 0
deriving DecidableEq, Repr, Inhabited

namespace Position

def advance (p : Position) (c : Char) : Position :=
  if c = '\n' then ⟨p.byte + c.utf8Size, p.line + 1, 0⟩
  else ⟨p.byte + c.utf8Size, p.line, p.column + 1⟩

def after (p : Position) (t : Text) : Position :=
  t.foldl advance p

@[simp] theorem after_nil (p : Position) : p.after [] = p := rfl

@[simp] theorem after_cons (p : Position) (c : Char) (t : Text) :
    p.after (c :: t) = (p.advance c).after t := rfl

@[simp] theorem after_append (p : Position) (s t : Text) :
    p.after (s ++ t) = (p.after s).after t :=
  List.foldl_append

end Position

/-- A stretch of text, from one place to another. -/
structure Span where
  start : Position := {}
  stop : Position := {}
deriving DecidableEq, Repr, Inhabited

end EmScale
