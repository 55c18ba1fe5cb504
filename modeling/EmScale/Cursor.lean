/-
  EmScale/Cursor.lean
  ===================
  **A place of reading that moves forward through a text.**

  A cursor holds the text on both sides of it and its position.  It moves over one
  character (`advance`), over a given text (`eat`), or over the longest run of characters of a
  kind (`advance_while`).  What lies behind is kept nearest character first, so a step moves
  one character across.

  The readers of a stylesheet take and give only the text ahead.  Where a place is asked for,
  in a span or in an error, it is that of the cursor in front of that text
  (`Position.before`).
-/
import EmScale.Position

namespace EmScale

/-- A reading place: the text behind it, last character first, and the text ahead. -/
structure Cursor where
  behind : Text
  ahead : Text
  position : Position
deriving DecidableEq, Repr

namespace Cursor

def start (source : Text) : Cursor :=
  ⟨[], source, {}⟩

/-! ### Looking -/

def peek (c : Cursor) : Option Char :=
  c.ahead.head?

def prev (c : Cursor) : Option Char :=
  c.behind.head?

def isAtEnd (c : Cursor) : Bool :=
  c.ahead.isEmpty

def consumed (c : Cursor) : Text :=
  c.behind.reverse

def startsWith (part : Text) (c : Cursor) : Bool :=
  part.isPrefixOf c.ahead

/-! ### Moving -/

def advance (c : Cursor) : Cursor :=
  match c.ahead with
  | [] => c
  | x :: rest => ⟨x :: c.behind, rest, c.position.advance x⟩

def advanceBy : Nat → Cursor → Cursor
  | 0, c => c
  | n + 1, c => advanceBy n c.advance

/-- Moves over `part` if the text ahead starts with it, and stays in place otherwise. -/
def eat (part : Text) (c : Cursor) : Cursor :=
  if c.startsWith part then c.advanceBy part.length else c

/-- Moves over the longest run of characters that satisfy `p`. -/
def advanceWhile (p : Char → Bool) (c : Cursor) : Cursor :=
  c.advanceBy (c.ahead.takeWhile p).length

/-- The cursor that has moved through `source` up to `ahead`. -/
def upTo (source ahead : Text) : Cursor :=
  (start source).advanceBy (source.length - ahead.length)

end Cursor

/-- The place in `source` that `ahead` lies ahead of. -/
def Position.before (source ahead : Text) : Position :=
  (Cursor.upTo source ahead).position

end EmScale
