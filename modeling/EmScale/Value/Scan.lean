/-
  EmScale/Value/Scan.lean
  =======================
  **A value as a sequence of lengths and other characters.**

  Scanning cuts a value into segments.  The segments in order are the value, so whatever is
  done to lengths leaves the rest of the value in place.  Behind a length the scan goes on
  inside a word: the unit of a length ends in a letter.

  The source gives the lengths alone, one at each call of `next`, with their places in the
  value (`Match`).  Both are read off the segments.
-/
import EmScale.Value.Token

namespace EmScale

/-- A part of a value: a length, or a character that belongs to none. -/
inductive Segment where
  | token (token : Token)
  | other (c : Char)
deriving Inhabited

namespace Segment

def print : Segment → Text
  | token t => t.print
  | other c => [c]

def token? : Segment → Option Token
  | token t => some t
  | other _ => none

end Segment

namespace Value

/-- Reads the length that starts here, if the scan stands where one may start. -/
def tokenAt? (units : UnitTable) (marker : Text) (r : Region) (t : Text) :
    Option (Text × Token × Text) :=
  if r.isEdge then Token.read? units marker t else none

theorem length_lt_of_tokenAt? {units : UnitTable} {marker t lead rest : Text} {r : Region}
    {token : Token} (h : tokenAt? units marker r t = some (lead, token, rest)) :
    rest.length < t.length := by
  unfold tokenAt? at h
  split at h
  · exact Token.length_lt_of_read? h
  · cases h

/-- The segments of a value from a place on, and what is open behind the value.  A turn is a
    `step` of the scanner or, where that takes several characters, a part of one. -/
def scanFrom (units : UnitTable) (marker : Text) (r : Region) (t : Text) :
    List Segment × Region :=
  match t with
  | [] => ([], r)
  | c :: rest =>
    match _ : tokenAt? units marker r (c :: rest) with
    | some (lead, token, behind) =>
      let (segments, last) := scanFrom units marker (.free .inside) behind
      (lead.map Segment.other ++ .token token :: segments, last)
    | none =>
      let (segments, last) := scanFrom units marker (r.step c) rest
      (.other c :: segments, last)
termination_by t.length
decreasing_by
  · exact length_lt_of_tokenAt? ‹_›
  · simp

/-- The segments of a value, and what is open behind it. -/
def scan (units : UnitTable) (marker t : Text) : List Segment × Region :=
  scanFrom units marker .start t

def tokens (units : UnitTable) (marker t : Text) : List Token :=
  (scan units marker t).1.filterMap Segment.token?

/-! ### Nothing is lost -/

theorem flatMap_print_other (t : Text) : (t.map Segment.other).flatMap Segment.print = t := by
  induction t with
  | nil => rfl
  | cons c t ih => simp [Segment.print, ih]

/-- The segments of a value are the value. -/
theorem print_scanFrom (units : UnitTable) (marker : Text) (r : Region) (t : Text) :
    (scanFrom units marker r t).1.flatMap Segment.print = t := by
  fun_induction scanFrom units marker r t with
  | case1 => rfl
  | case2 r c rest lead token behind found segments last eq ih =>
    simp only [eq] at ih
    unfold tokenAt? at found
    split at found
    · have whole := (Token.append_of_read? found).1
      simp only [List.flatMap_append, List.flatMap_cons, flatMap_print_other, ih, Segment.print]
      rw [← List.append_assoc, whole]
    · cases found
  | case3 r c rest missed segments last eq ih =>
    simp only [eq] at ih
    simp [Segment.print, ih]

theorem print_scan (units : UnitTable) (marker t : Text) :
    (scan units marker t).1.flatMap Segment.print = t :=
  print_scanFrom units marker .start t

end Value

/-! ### Places of lengths -/

/-- A length and its place in a value: where the text that is replaced starts, where its
    number starts and ends, and where the unit ends, in bytes. -/
structure Match where
  start : Nat
  numberStart : Nat
  numberStop : Nat
  stop : Nat
  token : Token
deriving Inhabited

/-- The lengths among segments that start at byte `offset`. -/
def Match.ofSegments (offset : Nat) : List Segment → List Match
  | [] => []
  | .other c :: rest => ofSegments (offset + c.utf8Size) rest
  | .token token :: rest =>
    let numberStart := offset + Text.byteSize token.marker
    let numberStop := numberStart + Text.byteSize token.numeral.print
    let stop := numberStop + Text.byteSize token.unit.name
    ⟨offset, numberStart, numberStop, stop, token⟩ :: ofSegments stop rest

end EmScale
