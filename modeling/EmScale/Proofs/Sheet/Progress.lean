/-
  EmScale/Proofs/Sheet/Progress.lean
  ==================================
  **Reading moves on, and ends.**

  A stylesheet is read in turns (`Stylesheet.Turn.next`), which are the rounds of the loop in
  `parse_nodes`, of all its calls one after the other.  The open blocks are those whose nodes
  are still being read, so their number is the depth of the calls.

  A turn ends the reading only where no piece is ahead, or a closing brace that closes nothing.
  Any other reads the piece, which is more than blanks and semicolons, and opens a block only
  at a brace.  To pass over blanks would not do: those behind a declaration that no semicolon
  closes are left to the block, so they lie ahead of two turns.  It follows that a text takes
  no more turns than it has characters, that no more blocks are open at once than it has
  braces, and that the last turn gives what is read (`Stylesheet.read_progress`).  A tree that
  was parsed has no more nodes than its text has characters, since each node shows one of its
  own (`Stylesheet.length_allNodes_le`).
-/
import EmScale.Proofs.Sheet.RoundTrip

namespace EmScale

/-! ### Marks -/

theorem Declaration.Reads.colon_mem_body {decl : Declaration} {trailing : Text}
    {stop : Option Char} (h : decl.Reads trailing stop) : ':' ∈ (Node.declaration decl).body := by
  rw [Node.body]
  exact List.mem_append_left _ h.colon_mem

namespace Piece

/-- **A piece is more than blanks and semicolons.**  Each kind has a mark that it cannot do
    without. -/
theorem exists_mark {piece : Piece} {rest : Text} (h : piece.Reads rest) :
    ∃ c ∈ piece.print, isFiller c = false := by
  match piece, h with
  | closing after, _ => exact ⟨'}', by simp [print], by decide⟩
  | opening heading, _ => exact ⟨'{', by simp [print], by decide⟩
  | leaf (.comment note) closed, _ => exact ⟨'/', by simp [print, Node.body], by decide⟩
  | leaf (.atLine head) closed, _ =>
    exact ⟨'@', by simp [print, Node.body, AtRule.print], by decide⟩
  | leaf (.declaration decl) true, ⟨_, hdecl⟩ =>
    exact ⟨':', by simp [print, hdecl.colon_mem_body], by decide⟩
  | leaf (.declaration decl) false, ⟨_, _, _, _, _, hdecl⟩ =>
    exact ⟨':', by simp [print, hdecl.colon_mem_body], by decide⟩

theorem print_noted (place : Text → Position) (start rest : Text) (piece : Piece) :
    (piece.noted place start rest).print = piece.print := by
  cases piece with
  | leaf node closed => cases node <;> rfl
  | opening heading => rfl
  | closing after => rfl

theorem exists_mark_of_read {place : Text → Position} {source rest : Text} {piece : Piece}
    (h : read source place = .ok (.piece piece rest)) :
    ∃ c ∈ piece.print, isFiller c = false := by
  rw [read_place] at h
  rcases hread : read source with fault | ⟨plain, rest'⟩ | after <;> rw [hread] at h
  · cases h
  · cases h
    rw [print_noted]
    exact exists_mark (read_eq_piece_iff.mp hread).2
  · cases h

theorem count_print_opening_pos (heading : Heading) : 0 < (opening heading).print.count '{' :=
  List.count_pos_iff.mpr (by simp [print])

end Piece

namespace Stylesheet

/-! ### Turns -/

namespace Turn

/-- The number of lists of nodes that are being read: that of the stylesheet, and those of the
    open blocks. -/
def nesting (turn : Turn) : Nat :=
  turn.blocks.length + 1

section Next

variable {turn later : Turn} {place : Text → Position}

/-- **What a turn does.**  One that does not end the reading reads a piece, and leaves more
    blocks open than there were only if that is the head of one. -/
theorem exists_piece_and_blocks_of_next (h : turn.next place = .inr later) :
    ∃ piece, Piece.read turn.ahead place = .ok (.piece piece later.ahead) ∧
      (later.blocks.length ≤ turn.blocks.length ∨
        ∃ heading, piece = .opening heading ∧
          later.blocks.length = turn.blocks.length + 1) := by
  unfold next at h
  split at h
  · cases h
  · cases h
  · cases h
  · rename_i hpiece
    cases h
    exact ⟨_, hpiece, Or.inl le_rfl⟩
  · rename_i heading _ hpiece
    cases h
    exact ⟨_, hpiece, Or.inr ⟨heading, rfl, rfl⟩⟩
  · cases h
  · rename_i hpiece hblocks
    cases h
    exact ⟨_, hpiece, Or.inl (by simp [hblocks])⟩

/-- **Where a turn ends the reading**, no piece is ahead, or a closing brace that closes
    nothing. -/
theorem closes_nothing_of_next {outcome : Except Fault Stylesheet}
    (h : turn.next place = .inl outcome) {piece : Piece} {rest : Text}
    (hpiece : Piece.read turn.ahead place = .ok (.piece piece rest)) :
    turn.blocks = [] ∧ ∃ after, piece = .closing after := by
  rcases turn with ⟨blocks, done, closed, ahead⟩
  rw [next, hpiece] at h
  cases piece with
  | leaf node closed => cases h
  | opening heading => cases h
  | closing after =>
    cases blocks with
    | nil => exact ⟨rfl, after, rfl⟩
    | cons block blocks => cases h

/-- **A turn opens a block only at a brace.**  The open blocks and the braces ahead do not
    become more. -/
theorem length_blocks_add_le_of_next (h : turn.next place = .inr later) :
    later.blocks.length + later.ahead.count '{' ≤
      turn.blocks.length + turn.ahead.count '{' := by
  obtain ⟨piece, hpiece, hblocks⟩ := exists_piece_and_blocks_of_next h
  rw [← Piece.print_of_read hpiece, List.count_append]
  rcases hblocks with hfewer | ⟨heading, rfl, hone⟩
  · omega
  · have hbrace := Piece.count_print_opening_pos heading
    omega

end Next

/-! ### Turns in a row -/

/-- The first turn leads to the last one in `n` turns. -/
inductive Leads (place : Text → Position) : Turn → Nat → Turn → Prop
  | here (turn : Turn) : Leads place turn 0 turn
  | next {turn later last : Turn} {n : Nat} (hnext : turn.next place = .inr later)
    (hleads : Leads place later n last) : Leads place turn (n + 1) last

section Leads

variable {place : Text → Position} {turn last : Turn} {n : Nat}

/-- **Turns use up the text**, at least one character each. -/
theorem Leads.add_length_ahead_le (h : Leads place turn n last) :
    n + last.ahead.length ≤ turn.ahead.length := by
  induction h with
  | here turn => rw [Nat.zero_add]
  | next hnext _ ih =>
    have hshorter := length_ahead_lt_of_next hnext
    omega

theorem Leads.length_blocks_add_le (h : Leads place turn n last) :
    last.blocks.length + last.ahead.count '{' ≤ turn.blocks.length + turn.ahead.count '{' := by
  induction h with
  | here turn => exact le_rfl
  | next hnext _ ih => exact ih.trans (length_blocks_add_le_of_next hnext)

/-- **Reading ends**, with what is read. -/
theorem exists_leads_end (place : Text → Position) (turn : Turn) :
    ∃ n last, Leads place turn n last ∧ last.next place = .inl (turn.read place) := by
  rw [read_eq_next]
  rcases hnext : turn.next place with outcome | later
  · exact ⟨0, turn, .here turn, hnext⟩
  · have hshorter := length_ahead_lt_of_next hnext
    obtain ⟨n, last, hleads, hend⟩ := exists_leads_end place later
    exact ⟨n + 1, last, .next hnext hleads, hend⟩
termination_by turn.ahead.length

end Leads

end Turn

end Stylesheet

/-! ### Nodes -/

namespace Node

mutual

/-- **Each node of a tree shows in its text.** -/
theorem length_preorder_le {after : Text} {stop : Option Char} :
    ∀ {node : Node} {closed : Bool}, node.Reads after stop closed →
      node.preorder.length ≤ node.body.length
  | .rule head children, _, ⟨_, hchildren⟩ => by
    have hinside := length_preorderAll_le hchildren
    simp only [preorder, body, List.length_cons, List.length_append]
    omega
  | .atBlock head children, _, ⟨_, hchildren⟩ => by
    have hinside := length_preorderAll_le hchildren
    simp only [preorder, body, List.length_cons, List.length_append]
    omega
  | .atLine head, _, _ => by simp [preorder, body, AtRule.print]
  | .declaration decl, _, ⟨_, hdecl⟩ => List.length_pos_of_mem hdecl.colon_mem_body
  | .comment note, _, _ => by simp [preorder, body]

theorem length_preorderAll_le {after : Text} {stop : Option Char} {semicolon : Bool} :
    ∀ {nodes : List Node} {closed : Bool}, AllRead after stop semicolon closed nodes →
      (preorderAll nodes).length ≤ (printAll semicolon nodes).length
  | [], _, _ => Nat.zero_le _
  | node :: nodes, _, ⟨hnode, hnodes⟩ => by
    have hfirst := length_preorder_le hnode
    have hrest := length_preorderAll_le hnodes
    simp only [preorderAll, printAll, List.length_append]
    omega

end

end Node

namespace Stylesheet

/-- **A tree has no more nodes than its text has characters.** -/
theorem length_allNodes_le {sheet : Stylesheet} (h : sheet.Reads) :
    sheet.allNodes.length ≤ sheet.print.length := by
  have hnodes := Node.length_preorderAll_le h
  rw [print, List.length_append]
  exact Nat.le_add_right_of_le hnodes

theorem length_allNodes_erase (sheet : Stylesheet) :
    sheet.erase.allNodes.length = sheet.allNodes.length := by
  rw [allNodes, erase, Node.preorderAll_eraseAll, List.length_map, allNodes]

theorem length_allNodes_le_of_parse {css : Text} {sheet : Stylesheet}
    (h : parse css = .ok sheet) : sheet.allNodes.length ≤ css.length := by
  obtain ⟨plain, hread, rfl⟩ := parse_eq_ok_iff.mp h
  obtain ⟨rfl, hplain, hreads⟩ := read_eq_ok_iff.mp hread
  rw [← length_allNodes_erase, erase_locate, hplain]
  exact length_allNodes_le hreads

/-- **Reading always makes progress.**  A turn either ends the reading, with no piece ahead or a
    closing brace that closes nothing, or it reads a piece and with that a character that is
    neither a blank nor a semicolon.  So reading ends on every text, with no more turns in front
    of the last one than the text has characters, and never deeper nested than the braces of the
    text allow.  Where it gives a stylesheet, that has no more nodes than the text has
    characters. -/
theorem read_progress (css : Text) (place : Text → Position) :
    (∀ turn : Turn,
        (∃ outcome, turn.next place = .inl outcome ∧
          ∀ piece rest, Piece.read turn.ahead place = .ok (.piece piece rest) →
            turn.blocks = [] ∧ ∃ after, piece = .closing after) ∨
        ∃ later piece, turn.next place = .inr later ∧
          Piece.read turn.ahead place = .ok (.piece piece later.ahead) ∧
          turn.ahead = piece.print ++ later.ahead ∧ ∃ c ∈ piece.print, isFiller c = false) ∧
      (∀ n turn, Turn.Leads place (Turn.start css) n turn →
        n + turn.ahead.length ≤ css.length ∧ turn.nesting ≤ css.count '{' + 1) ∧
      (∃ n last, Turn.Leads place (Turn.start css) n last ∧
        last.next place = .inl (read css place)) ∧
      ∀ sheet, parse css = .ok sheet → sheet.allNodes.length ≤ css.length := by
  refine ⟨?_, ?_, (Turn.start css).exists_leads_end place, fun _ => length_allNodes_le_of_parse⟩
  · intro turn
    rcases hnext : turn.next place with outcome | later
    · exact Or.inl ⟨outcome, rfl, fun _ _ => Turn.closes_nothing_of_next hnext⟩
    · obtain ⟨piece, hpiece⟩ := Turn.exists_piece_of_next hnext
      exact Or.inr ⟨later, piece, rfl, hpiece, (Piece.print_of_read hpiece).symm,
        Piece.exists_mark_of_read hpiece⟩
  · intro n turn hleads
    have hblocks : turn.blocks.length + turn.ahead.count '{' ≤ 0 + css.count '{' :=
      hleads.length_blocks_add_le
    refine ⟨hleads.add_length_ahead_le, ?_⟩
    rw [Turn.nesting]
    omega

/-- A turn opens a block, the next one reads what is in it, and a third one closes it. -/
example :
    ∃ opened filled closed : Turn,
      (Turn.start "p \x7b; q:r \x7d ".toList).next = .inr opened ∧
      opened.ahead = "; q:r \x7d ".toList ∧ opened.nesting = 2 ∧
      opened.next = .inr filled ∧ filled.ahead = " \x7d ".toList ∧ filled.nesting = 2 ∧
      filled.next = .inr closed ∧ closed.ahead = [' '] ∧ closed.nesting = 1 ∧
      closed.next = .inl (read "p \x7b; q:r \x7d ".toList) :=
  ⟨_, _, _, by cbv, by cbv, by cbv, by cbv, by cbv, by cbv, by cbv, by cbv, by cbv, by cbv⟩

end Stylesheet

end EmScale
