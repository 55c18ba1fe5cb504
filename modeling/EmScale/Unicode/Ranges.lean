/-
  EmScale/Unicode/Ranges.lean
  ===========================
  **Sets of characters given by ranges of code points.**

  The Unicode properties that a stylesheet reader asks about are finite unions of
  code point intervals.  A table lists the intervals outside ASCII in increasing
  order; the ASCII part of each property is written out as a formula beside its
  table, so that facts about single ASCII characters need no table at all.
-/

namespace EmScale.Unicode

/-- A union of closed intervals of code points. -/
abbrev Ranges := Array (Nat × Nat)

/-- Whether the code point of `c` lies in one of the intervals. -/
def Ranges.holds (table : Ranges) (c : Char) : Bool :=
  table.any fun range => range.1 ≤ c.toNat && c.toNat ≤ range.2

end EmScale.Unicode
