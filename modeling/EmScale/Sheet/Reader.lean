/-
  EmScale/Sheet/Reader.lean
  =========================
  **Reading a stylesheet.**

  A stylesheet is read in turns, of which each reads one piece.  Open blocks wait on a stack,
  each with its head and the nodes in front of it; a closing brace completes the innermost one.
  So the stack holds what the source has on its call stack, where `parse_nodes` reads the nodes
  of a block and is called for each block inside of it.

  Places are met from left to right and kept by the text ahead of them: for an open block those
  of its head and of its brace, for the nodes what their readers are told.  Parsing measures
  them in the whole text.
-/
import EmScale.Sheet.Piece

namespace EmScale

/-- An open block: its head, the text from its head on, the text from its opening brace on, and
    the nodes in front of it in the block around it, last first. -/
structure OpenBlock where
  heading : Heading
  start : Text
  brace : Text
  siblings : List Node
deriving Repr, Inhabited

namespace Stylesheet

/-! ### Turns -/

/-- The start of a turn: the open blocks, innermost first, the nodes of the innermost one so
    far, last first, whether a semicolon closes the last of them, and the text ahead. -/
structure Turn where
  blocks : List OpenBlock := []
  done : List Node := []
  closed : Bool := false
  ahead : Text

namespace Turn

/-- The first turn of a text. -/
def start (source : Text) : Turn :=
  { ahead := source }

/-- Takes a turn, one round of the loop in `parse_nodes`.  Gives what is read if the reading ends
    here, and else the next turn. -/
def next (turn : Turn) (place : Text → Position := fun _ => {}) :
    Except Fault Stylesheet ⊕ Turn :=
  match Piece.read turn.ahead place, turn.blocks with
  | .error fault, _ => .inl (.error fault)
  | .ok (.finished after), [] =>
    .inl (.ok { nodes := turn.done.reverse, after, semicolon := turn.closed })
  | .ok (.finished _), block :: _ => .inl (.error ⟨.unclosedBlock, block.brace, []⟩)
  | .ok (.piece (.leaf node closed) ahead), blocks =>
    .inr { blocks, done := node :: turn.done, closed, ahead }
  | .ok (.piece (.opening heading) ahead), blocks =>
    let start := turn.ahead.dropWhile isFiller
    .inr { blocks := ⟨heading, start, '{' :: ahead, turn.done⟩ :: blocks, ahead }
  | .ok (.piece (.closing _) ahead), [] =>
    .inl (.error ⟨.unexpectedCloseBrace, '}' :: ahead, '}' :: ahead⟩)
  | .ok (.piece (.closing after) ahead), block :: blocks =>
    let span := ⟨place block.start, place ahead⟩
    let node := block.heading.node turn.done.reverse after turn.closed span
    .inr { blocks, done := node :: block.siblings, ahead }

/-- A turn that does not end the reading reads a piece. -/
theorem exists_piece_of_next {turn later : Turn} {place : Text → Position}
    (h : turn.next place = .inr later) :
    ∃ piece, Piece.read turn.ahead place = .ok (.piece piece later.ahead) := by
  unfold next at h
  split at h <;> cases h <;> exact ⟨_, ‹_›⟩

theorem length_ahead_lt_of_next {turn later : Turn} {place : Text → Position}
    (h : turn.next place = .inr later) : later.ahead.length < turn.ahead.length := by
  obtain ⟨piece, hpiece⟩ := exists_piece_of_next h
  exact Piece.length_lt_of_read hpiece

/-- Takes turns until the reading ends. -/
def read (turn : Turn) (place : Text → Position := fun _ => {}) : Except Fault Stylesheet :=
  match _ : turn.next place with
  | .inl outcome => outcome
  | .inr later => later.read place
termination_by turn.ahead.length
decreasing_by exact length_ahead_lt_of_next ‹_›

end Turn

/-! ### Texts -/

/-- Reads a stylesheet.  Without `place` its nodes have no places. -/
def read (source : Text) (place : Text → Position := fun _ => {}) : Except Fault Stylesheet :=
  (Turn.start source).read place

/-- Reads a stylesheet, with the places of its nodes in the text. -/
def parse (source : Text) : Except ParseError Stylesheet :=
  match read source (Position.before source) with
  | .error fault => .error (fault.locate source)
  | .ok sheet => .ok sheet

end Stylesheet

end EmScale
