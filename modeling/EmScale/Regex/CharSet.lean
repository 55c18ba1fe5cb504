/-
  EmScale/Regex/CharSet.lean
  ==========================
  **Sets of characters in patterns.**

  A set is the list of its intervals of code points, in increasing order and with a gap
  between each two.  So a set is written in one way only: sets are equal if they have the
  same intervals, and the size of what a pattern is compiled to can be read off them.

  Code points of surrogates are no characters.  An interval may run across them, but the
  steps from one character to the next pass over them.
-/
import EmScale.Unicode.CaseFold
import EmScale.Unicode.Word

namespace EmScale.Regex

/-! ### Intervals -/

/-- The code points from `first` to `last`, both included. -/
structure Interval where
  first : Nat
  last : Nat
deriving DecidableEq, Repr, Inhabited

namespace Interval

/-- The interval between two code points, in either order. -/
def between (a b : Nat) : Interval := ⟨min a b, max a b⟩

def contains (i : Interval) (n : Nat) : Bool := i.first ≤ n && n ≤ i.last

/-- The interval around two intervals. -/
def join (i j : Interval) : Interval := ⟨min i.first j.first, max i.last j.last⟩

def inter? (i j : Interval) : Option Interval :=
  let first := max i.first j.first
  let last := min i.last j.last
  if first ≤ last then some ⟨first, last⟩ else none

end Interval

def nextCode (n : Nat) : Nat := if n = 0xD7FF then 0xE000 else n + 1

def prevCode (n : Nat) : Nat := if n = 0xE000 then 0xD7FF else n - 1

/-- What an interval has in front of another one and behind it. -/
def Interval.without (i j : Interval) : List Interval :=
  if j.last < i.first || i.last < j.first then [i]
  else
    (if i.first < j.first then [⟨i.first, prevCode j.first⟩] else []) ++
      (if j.last < i.last then [⟨nextCode j.last, i.last⟩] else [])

/-- Adds an interval to intervals in order.  It is joined with those that it meets or
    touches. -/
def Interval.addTo (i : Interval) : List Interval → List Interval
  | [] => [i]
  | j :: rest =>
    if i.last + 1 < j.first then i :: j :: rest
    else if j.last + 1 < i.first then j :: i.addTo rest
    else (i.join j).addTo rest

/-! ### Sets -/

/-- A set of characters. -/
structure CharSet where
  intervals : List Interval := []
deriving DecidableEq, Repr, Inhabited

namespace CharSet

def containsCode (s : CharSet) (n : Nat) : Bool := s.intervals.any fun i => i.contains n

def contains (s : CharSet) (c : Char) : Bool := s.containsCode c.toNat

def ofIntervals (intervals : List Interval) : CharSet :=
  ⟨intervals.foldl (fun all i => i.addTo all) []⟩

def ofCodes (codes : List Nat) : CharSet := ofIntervals (codes.map fun n => ⟨n, n⟩)

def maxCode : Nat := 0x10FFFF

def everything : CharSet := ⟨[⟨0, maxCode⟩]⟩

/-- The characters between two characters, both included. -/
def range (first last : Char) : CharSet := ⟨[⟨first.toNat, last.toNat⟩]⟩

def single (c : Char) : CharSet := range c c

def union (a b : CharSet) : CharSet :=
  ⟨b.intervals.foldl (fun all i => i.addTo all) a.intervals⟩

def inter (a b : CharSet) : CharSet :=
  ⟨a.intervals.flatMap fun i => b.intervals.filterMap i.inter?⟩

def diff (a b : CharSet) : CharSet :=
  ⟨b.intervals.foldl (fun rest j => rest.flatMap fun i => i.without j) a.intervals⟩

def symmDiff (a b : CharSet) : CharSet := (a.union b).diff (a.inter b)

/-- What lies behind the interval `i` and outside the intervals that follow it.  Where two
    intervals meet at the surrogates there is no character between them; the gap then has
    the characters on both sides of it. -/
def gapsBehind (i : Interval) : List Interval → List Interval
  | [] => if i.last < maxCode then [⟨nextCode i.last, maxCode⟩] else []
  | j :: rest => .between (nextCode i.last) (prevCode j.first) :: gapsBehind j rest

def complement (s : CharSet) : CharSet :=
  match s.intervals with
  | [] => everything
  | i :: rest => ⟨(if 0 < i.first then [⟨0, prevCode i.first⟩] else []) ++ gapsBehind i rest⟩

/-! ### Case -/

/-- Adds the second of each pair whose first is in the set. -/
def addImages (s : CharSet) (pairs : List (Nat × Nat)) : CharSet :=
  pairs.foldl (fun all (code, image) =>
    if s.containsCode code && !all.containsCode image then all.union (ofCodes [image]) else all) s

/-- The characters that equal one of the set up to case: what the characters of the set fold
    to, and then all that folds to the same. -/
def anyCase (s : CharSet) : CharSet :=
  (s.addImages Unicode.foldPairs).addImages (Unicode.foldPairs.map Prod.swap)

/-- The small letters of ASCII, each with its capital. -/
def asciiPairs : List (Nat × Nat) :=
  (List.range 26).map fun i => ('a'.toNat + i, 'A'.toNat + i)

/-- The characters that equal one of the set up to the case of ASCII letters. -/
def anyAsciiCase (s : CharSet) : CharSet :=
  s.addImages (asciiPairs ++ asciiPairs.map Prod.swap)

/-- The characters that equal `c` up to case. -/
def anyCaseOf (c : Char) : CharSet :=
  ofCodes ((Unicode.caseVariants c).map Char.toNat)

/-! ### Named sets -/

/-- A set of ASCII characters with a table of the others. -/
def withTable (ascii : CharSet) (table : Unicode.Ranges) : CharSet :=
  ⟨ascii.intervals ++ table.toList.map fun (first, last) => ⟨first, last⟩⟩

def asciiDigits : CharSet := range '0' '9'

def asciiWords : CharSet :=
  ((asciiDigits.union (range 'A' 'Z')).union (single '_')).union (range 'a' 'z')

def asciiSpaces : CharSet := (range '\t' '\r').union (single ' ')

def digits : CharSet := withTable asciiDigits Unicode.digitRanges

def words : CharSet := withTable asciiWords Unicode.wordRanges

/-- Blanks: the characters of the property `White_Space`. -/
def spaces : CharSet :=
  withTable asciiSpaces #[(0x85, 0x85), (0xA0, 0xA0), (0x1680, 0x1680), (0x2000, 0x200A),
    (0x2028, 0x2029), (0x202F, 0x202F), (0x205F, 0x205F), (0x3000, 0x3000)]

/-! ### Kinds of sets -/

def isAscii (s : CharSet) : Bool := s.intervals.all fun i => i.last < 0x80

/-- The character of a set that has one. -/
def character? (s : CharSet) : Option Char :=
  match s.intervals with
  | [i] => if i.first = i.last then some (Char.ofNat i.first) else none
  | _ => none

end CharSet

end EmScale.Regex
