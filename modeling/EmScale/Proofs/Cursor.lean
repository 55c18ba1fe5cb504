/-
  EmScale/Proofs/Cursor.lean
  ==========================
  **A cursor stays in step with its text.**

  However a cursor is moved, it marks one place of the text it started in.  The texts on its
  two sides are that text, and its bytes, line and column are those of the text behind it
  (`Cursor.inStep_run`).  The byte offset alone tells the place: no other cut of the text has
  as many bytes in front of it (`Text.append_inj_of_byteSize_eq`).

  A cursor that is in step is `Cursor.between` the two parts of its text.  Every move takes a
  text from the part ahead over to the part behind (`Cursor.exists_move_between`), and so does
  every sequence of moves.

  The places of a stylesheet are those of cursors, told by the text ahead of them.  For two
  parts of a text they are the place behind the one (`Position.before_append`).
-/
import EmScale.Cursor
import EmScale.Proofs.Position

namespace EmScale

/-! ### Cuts of a text -/

/-- **A byte offset marks one cut.**  Two cuts of a text with equally many bytes in front of
    them are the same. -/
theorem Text.append_inj_of_byteSize_eq {a b a' b' : Text} (hwhole : a ++ b = a' ++ b')
    (hsize : a.byteSize = a'.byteSize) : a = a' ∧ b = b' := by
  rcases List.append_eq_append_iff.mp hwhole with ⟨more, rfl, rfl⟩ | ⟨more, rfl, rfl⟩
  -- One front is the other one and something more, which has no bytes.
  all_goals
    rw [byteSize_append] at hsize
    have hmore : more = [] := byteSize_eq_zero_iff.mp (by omega)
    simp [hmore]

namespace Cursor

/-! ### Moves -/

/-- A call that may move a cursor. -/
inductive Move where
  | advance
  | eat (part : Text)
  | advanceWhile (p : Char → Bool)

def move (c : Cursor) : Move → Cursor
  | .advance => c.advance
  | .eat part => c.eat part
  | .advanceWhile p => c.advanceWhile p

/-- Makes moves one after the other. -/
def run (c : Cursor) (moves : List Move) : Cursor :=
  moves.foldl move c

@[simp] theorem run_nil (c : Cursor) : c.run [] = c := rfl

@[simp] theorem run_cons (c : Cursor) (m : Move) (moves : List Move) :
    c.run (m :: moves) = (c.move m).run moves := rfl

/-! ### Cursors in step -/

/-- A cursor that marks one place of `source` with all that it holds. -/
structure InStep (source : Text) (c : Cursor) : Prop where
  whole : c.consumed ++ c.ahead = source
  byte : c.position.byte = c.consumed.byteSize
  line : c.position.line = c.consumed.count '\n'
  column : c.position.column = (c.consumed.rtakeWhile (· != '\n')).length
  prev : c.prev = c.consumed.getLast?
  within : c.position.byte ≤ source.byteSize
  /-- The text ahead alone tells the position in the source. -/
  position : c.position = .before source c.ahead
  /-- The byte offset is that of no other place. -/
  unique : ∀ front back : Text, front ++ back = source → front.byteSize = c.position.byte →
    front = c.consumed ∧ back = c.ahead
  atEnd : c.isAtEnd = true ↔ source.byteSize ≤ c.position.byte

/-- The cursor behind `front` and in front of `back`. -/
def between (front back : Text) : Cursor :=
  ⟨front.reverse, back, .behind front⟩

theorem start_eq_between (source : Text) : start source = between [] source := rfl

@[simp] theorem consumed_between (front back : Text) : (between front back).consumed = front :=
  List.reverse_reverse front

@[simp] theorem ahead_between (front back : Text) : (between front back).ahead = back := rfl

@[simp] theorem position_between (front back : Text) :
    (between front back).position = .behind front := rfl

theorem prev_between (front back : Text) : (between front back).prev = front.getLast? :=
  List.head?_reverse

/-- At the end of a text all of its bytes are consumed, and nowhere in front of it. -/
theorem isAtEnd_between_iff {front back : Text} :
    (between front back).isAtEnd = true ↔ (front ++ back).byteSize ≤ front.byteSize := by
  rw [isAtEnd, ahead_between, List.isEmpty_iff, Text.byteSize_append, ← Text.byteSize_eq_zero_iff]
  omega

/-- The position of a cursor is moved over the text that the cursor moves over. -/
theorem position_advanceBy (n : Nat) (c : Cursor) :
    (c.advanceBy n).position = c.position.after (c.ahead.take n) := by
  induction n generalizing c with
  | zero => rfl
  | succ n ih =>
    rw [advanceBy, ih]
    rcases c with ⟨behind, _ | ⟨x, ahead⟩, position⟩
    · simp [advance]
    · rfl

end Cursor

namespace Position

theorem before_eq_after (source ahead : Text) :
    before source ahead = after {} (source.take (source.length - ahead.length)) :=
  Cursor.position_advanceBy _ (Cursor.start source)

/-- The place in front of the text ahead is the place behind the text in front of it. -/
theorem before_append (front ahead : Text) : before (front ++ ahead) ahead = .behind front := by
  rw [before_eq_after, List.length_append, Nat.add_sub_cancel, List.take_left, after_start]

end Position

namespace Cursor

theorem inStep_between (front back : Text) : (between front back).InStep (front ++ back) where
  whole := by rw [consumed_between, ahead_between]
  byte := by rw [position_between, consumed_between, Position.byte_behind]
  line := by rw [position_between, consumed_between, Position.behind]
  column := by rw [position_between, consumed_between, Position.behind]
  prev := by rw [prev_between, consumed_between]
  within := by simp
  position := by rw [position_between, ahead_between, Position.before_append]
  unique := by
    intro front' back' hwhole hsize
    rw [consumed_between, ahead_between]
    exact Text.append_inj_of_byteSize_eq hwhole hsize
  atEnd := isAtEnd_between_iff

/-! ### What a move passes over -/

/-- The text that a move passes over. -/
def passed (c : Cursor) : Move → Text
  | .advance => c.ahead.take 1
  | .eat part => if part <+: c.ahead then part else []
  | .advanceWhile p => c.ahead.takeWhile p

theorem startsWith_iff {part : Text} {c : Cursor} :
    c.startsWith part = true ↔ part <+: c.ahead :=
  List.isPrefixOf_iff_prefix

theorem advance_between (front rest : Text) (x : Char) :
    (between front (x :: rest)).advance = between (front ++ [x]) rest := by
  have hposition : (Position.behind front).advance x = .behind (front ++ [x]) :=
    Position.after_behind front [x]
  simp [between, advance, hposition]

/-- Advancing by the length of a text passes over it. -/
theorem advanceBy_between (front t rest : Text) :
    (between front (t ++ rest)).advanceBy t.length = between (front ++ t) rest := by
  induction t generalizing front with
  | nil => simp [advanceBy]
  | cons x t ih =>
    rw [List.cons_append, List.length_cons, advanceBy, advance_between, ih, List.append_assoc]
    rfl

theorem eat_between_of_prefix (front part rest : Text) :
    (between front (part ++ rest)).eat part = between (front ++ part) rest := by
  have hstarts : (between front (part ++ rest)).startsWith part = true :=
    startsWith_iff.mpr (List.prefix_append part rest)
  rw [eat, if_pos hstarts, advanceBy_between]

theorem eat_of_not_prefix {c : Cursor} {part : Text} (h : ¬ part <+: c.ahead) :
    c.eat part = c := by
  rw [eat, if_neg (mt startsWith_iff.mp h)]

/-- **Every move takes a text over from the part ahead to the part behind.** -/
theorem exists_move_between (front back : Text) (m : Move) :
    ∃ rest, back = (between front back).passed m ++ rest ∧
      (between front back).move m = between (front ++ (between front back).passed m) rest := by
  cases m with
  | advance =>
    rcases back with _ | ⟨x, rest⟩
    · exact ⟨[], rfl, by simp [move, advance, passed, between]⟩
    · exact ⟨rest, rfl, advance_between front rest x⟩
  | eat part =>
    by_cases hprefix : part <+: back
    · obtain ⟨rest, rfl⟩ := hprefix
      refine ⟨rest, by simp [passed], ?_⟩
      simpa [move, passed] using eat_between_of_prefix front part rest
    · refine ⟨back, by simp [passed, hprefix], ?_⟩
      simpa [move, passed, hprefix] using eat_of_not_prefix (c := between front back) hprefix
  | advanceWhile p =>
    have hwhole := List.takeWhile_append_dropWhile (p := p) (l := back)
    refine ⟨back.dropWhile p, hwhole.symm, ?_⟩
    have hmoved := advanceBy_between front (back.takeWhile p) (back.dropWhile p)
    rw [hwhole] at hmoved
    exact hmoved

/-- Moves take a text over from the part ahead to the part behind. -/
theorem exists_run_between (front back : Text) (moves : List Move) :
    ∃ more rest, back = more ++ rest ∧
      (between front back).run moves = between (front ++ more) rest := by
  induction moves generalizing front back with
  | nil => exact ⟨[], back, rfl, by simp⟩
  | cons m moves ih =>
    obtain ⟨rest, hback, hmove⟩ := exists_move_between front back m
    generalize (between front back).passed m = t at hback hmove
    obtain ⟨more, rest', rfl, hrun⟩ := ih (front ++ t) rest
    refine ⟨t ++ more, rest', by rw [hback, List.append_assoc], ?_⟩
    rw [run_cons, hmove, hrun, List.append_assoc]

/-- **A cursor stays in step with its source** over every sequence of moves.  A move takes
    over what it passes, so the offset never decreases, and eating a text that does not lie
    ahead leaves the cursor as it is. -/
theorem inStep_run (source : Text) (moves : List Move) :
    let c := (start source).run moves
    c.InStep source ∧
      (∀ m, (c.move m).consumed = c.consumed ++ c.passed m) ∧
      (∀ later, c.position.byte ≤ (c.run later).position.byte) ∧
      ∀ part, ¬ part <+: c.ahead → c.eat part = c := by
  obtain ⟨front, back, rfl, hrun⟩ := exists_run_between [] source moves
  rw [start_eq_between, hrun, List.nil_append]
  refine ⟨inStep_between front back, ?_, ?_, fun part hpart => eat_of_not_prefix hpart⟩
  · intro m
    obtain ⟨rest, -, hmove⟩ := exists_move_between front back m
    rw [hmove, consumed_between, consumed_between]
  · intro later
    obtain ⟨more, rest, -, hlater⟩ := exists_run_between front back later
    rw [hlater, position_between, position_between, Position.byte_behind, Position.byte_behind,
      Text.byteSize_append]
    exact Nat.le_add_right _ _

example : ((start ['é', '\n', 'a']).run [.eat ['é', '\n'], .eat ['x']]).position = ⟨3, 1, 0⟩ := by
  decide

end Cursor

end EmScale
