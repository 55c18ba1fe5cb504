/-
  EmScale/Proofs/Position.lean
  ============================
  **A place is what the text in front of it measures.**

  A position is reached character by character.  Here it is read off the whole text in
  front of it: its bytes, its line feeds, and the characters behind the last of them
  (`Position.after_start`).  A span that starts and ends at such places marks a stretch of
  the text (`Span.Covers`), so it lies in the text, on boundaries of characters.
-/
import EmScale.Position
import Mathlib

namespace EmScale

/-- The place behind a text. -/
def Position.behind (t : Text) : Position where
  byte := t.byteSize
  line := t.count '\n'
  column := (t.rtakeWhile (· != '\n')).length

@[simp] theorem Position.byte_behind (t : Text) : (behind t).byte = t.byteSize := rfl

/-- **The place that is reached over a text is the place behind it.** -/
theorem Position.after_start (t : Text) : Position.after {} t = .behind t := by
  induction t using List.reverseRecOn with
  | nil => rfl
  | append_singleton t c ih =>
    rw [after_append, ih, after_cons, after_nil]
    unfold advance behind
    by_cases hc : c = '\n'
    · simp [hc]
    · simp [hc]

theorem Position.after_behind (front t : Text) :
    (Position.behind front).after t = .behind (front ++ t) := by
  rw [← after_start, ← after_start, after_append]

/-- `part` stands in `source` from the start of the span to its stop. -/
def Span.Covers (source : Text) (span : Span) (part : Text) : Prop :=
  ∃ front back, source = front ++ (part ++ back) ∧
    span = ⟨.behind front, .behind (front ++ part)⟩

/-- One span lies inside another one. -/
def Span.IsWithin (inner outer : Span) : Prop :=
  outer.start.byte ≤ inner.start.byte ∧ inner.stop.byte ≤ outer.stop.byte

namespace Span

variable {source part : Text} {span : Span}

theorem Covers.start_le_stop (h : span.Covers source part) :
    span.start.byte ≤ span.stop.byte := by
  obtain ⟨front, back, -, rfl⟩ := h
  simp [Position.behind]

theorem Covers.stop_le (h : span.Covers source part) : span.stop.byte ≤ source.byteSize := by
  obtain ⟨front, back, rfl, rfl⟩ := h
  simp [Position.behind, ← Nat.add_assoc]

/-- A stretch behind a stretch. -/
theorem covers_behind {front gap back : Text} (h : source = front ++ (gap ++ back)) :
    Span.Covers source ⟨.behind front, .behind (front ++ gap)⟩ gap :=
  ⟨front, back, h, rfl⟩

end Span

end EmScale
