/-
  EmScale/Unicode/ByteRanges.lean
  ===============================
  **The encodings of an interval of code points.**

  UTF-8 writes a code point in one to four bytes: a leading byte that tells how many follow,
  and digits to the base 64.  The encodings of an interval are cut into boxes: sequences of
  byte ranges that every choice of one byte out of each range is an encoding from.  A box
  comes about wherever all later digits run through their whole range, so the first and last
  leading bytes of an interval may need boxes of their own.
-/

namespace EmScale.Unicode

/-- The bytes from `first` to `last`, both included. -/
structure ByteRange where
  first : Nat
  last : Nat
deriving DecidableEq, Repr, Inhabited

/-- A sequence of byte ranges, standing for one byte out of each. -/
abbrev ByteBox := List ByteRange

/-- The bytes behind a leading byte. -/
def continuation : ByteRange := ⟨0x80, 0xBF⟩

/-- The boxes of the numbers from `a` to `b`, which have `more` digits to the base 64 behind
    the first one; `offset` is the byte that stands for zero in front. -/
def boxesOf (offset : Nat) : (more : Nat) → (a b : Nat) → List ByteBox
  | 0, a, b => [[⟨offset + a, offset + b⟩]]
  | more + 1, a, b =>
    let base := 64 ^ (more + 1)
    let lead (digit : Nat) (boxes : List ByteBox) : List ByteBox :=
      boxes.map (⟨offset + digit, offset + digit⟩ :: ·)
    if a / base = b / base then
      lead (a / base) (boxesOf 0x80 more (a % base) (b % base))
    else
      let first := (a + base - 1) / base
      let stop := (b + 1) / base
      (if a % base = 0 then [] else lead (a / base) (boxesOf 0x80 more (a % base) (base - 1))) ++
        (if first < stop then
          [⟨offset + first, offset + stop - 1⟩ :: List.replicate (more + 1) continuation]
        else []) ++
        (if b % base = base - 1 then [] else lead (b / base) (boxesOf 0x80 more 0 (b % base)))

/-- The code points with encodings of one form: the first and the last of them, the leading
    byte of zero, and the number of bytes behind the leading one.  Surrogates have none. -/
def encodingForms : List (Nat × Nat × Nat × Nat) :=
  [(0x0, 0x7F, 0x0, 0), (0x80, 0x7FF, 0xC0, 1), (0x800, 0xD7FF, 0xE0, 2),
    (0xE000, 0xFFFF, 0xE0, 2), (0x10000, 0x10FFFF, 0xF0, 3)]

/-- The boxes of the code points from `a` to `b`, in order. -/
def encodingBoxes (a b : Nat) : List ByteBox :=
  encodingForms.flatMap fun (first, last, offset, more) =>
    if max a first ≤ min b last then boxesOf offset more (max a first) (min b last) else []

end EmScale.Unicode
