/-
  EmScale/Unicode/WhiteSpace.lean
  ===============================
  **The property `White_Space`.**

  These are the blanks of a stylesheet: what may stand around selectors, preludes,
  property names and values without belonging to them.
-/

namespace EmScale.Unicode

/-- Tab to carriage return, space, next line, no-break space, the spaces of the general
    punctuation block, and the ideographic space. -/
def isWhiteSpace (c : Char) : Bool :=
  let n := c.toNat
  (0x9 ≤ n && n ≤ 0xD) || n == 0x20 || n == 0x85 || n == 0xA0 || n == 0x1680 ||
    (0x2000 ≤ n && n ≤ 0x200A) || n == 0x2028 || n == 0x2029 || n == 0x202F ||
    n == 0x205F || n == 0x3000

end EmScale.Unicode
