/-
  EmScale/Value/Token.lean
  ========================
  **Lengths: a number and a unit.**

  A number is an optional sign and decimal digits with an optional point, with at least one
  digit on either side of it.  It makes a length together with a unit of the table if the
  word ends behind the unit.  The unit is the first of the table that fits; no other one is
  tried.  In front of the number an ignore marker may stand, which keeps the length from
  being converted.
-/
import EmScale.Number.Numeral
import EmScale.Units
import EmScale.Value.Region

namespace EmScale

/-! ### Lengths -/

/-- A length as it is written, with the ignore marker in front of it if there is one. -/
structure Token where
  marker : Text
  numeral : Numeral
  unit : SourceUnit
deriving Inhabited

namespace Token

def length (token : Token) : Text :=
  token.numeral.print ++ token.unit.name

def print (token : Token) : Text :=
  token.marker ++ token.length

/-- Whether a marker keeps the length from being converted. -/
def isIgnored (token : Token) : Bool :=
  !token.marker.isEmpty

/-- Whether the word ends in front of a text. -/
def endsBefore (t : Text) : Bool :=
  match t with
  | [] => true
  | c :: _ => !continuesWord c

/-- Reads the number and unit that a text starts with (`match_number`). -/
def readLength? (units : UnitTable) (t : Text) : Option (Numeral × SourceUnit × Text) := do
  let (numeral, behind) ← Numeral.read? t
  let unit ← units.startOf? behind
  let rest := behind.drop unit.name.length
  if endsBefore rest then some (numeral, unit, rest) else none

/-- Reads a marked length.  A sign in front of the marker is no part of it. -/
def readIgnored? (units : UnitTable) (marker t : Text) : Option (Text × Token × Text) :=
  let (sign, unsigned) := splitSign t
  if !marker.isEmpty && marker.isPrefixOf unsigned then
    (readLength? units (unsigned.drop marker.length)).map fun (numeral, unit, rest) =>
      (sign, ⟨marker, numeral, unit⟩, rest)
  else none

/-- Reads the length that a text starts with, marked or not: the text in front of it, the
    length, and the text behind it (`match_token`).  An empty marker is none. -/
def read? (units : UnitTable) (marker t : Text) : Option (Text × Token × Text) :=
  match readIgnored? units marker t with
  | some found => some found
  | none =>
    (readLength? units t).map fun (numeral, unit, rest) => ([], ⟨[], numeral, unit⟩, rest)

/-! ### Nothing is lost -/

theorem append_of_readLength? {units : UnitTable} {t rest : Text} {numeral : Numeral}
    {unit : SourceUnit} (h : readLength? units t = some (numeral, unit, rest)) :
    numeral.print ++ unit.name ++ rest = t := by
  simp only [readLength?, Option.bind_eq_bind, Option.bind_eq_some_iff, Prod.exists] at h
  obtain ⟨n, behind, number, u, found, h⟩ := h
  split at h
  · cases h
    have starts : unit.name <+: behind := by
      simpa using List.find?_some found
    rw [List.append_assoc, List.prefix_iff_eq_append.1 starts,
      Numeral.print_append_of_read? number]
  · cases h

theorem numeral_ne_nil_of_readLength? {units : UnitTable} {t rest : Text} {numeral : Numeral}
    {unit : SourceUnit} (h : readLength? units t = some (numeral, unit, rest)) :
    numeral.print ≠ [] := by
  simp only [readLength?, Option.bind_eq_bind, Option.bind_eq_some_iff, Prod.exists] at h
  obtain ⟨n, behind, number, u, found, h⟩ := h
  split at h
  · cases h
    exact Numeral.print_ne_nil_of_read? number
  · cases h

theorem append_of_readIgnored? {units : UnitTable} {marker t lead rest : Text} {token : Token}
    (h : readIgnored? units marker t = some (lead, token, rest)) :
    lead ++ token.print ++ rest = t ∧ token.numeral.print ≠ [] := by
  simp only [readIgnored?] at h
  split at h
  · rename_i marked
    simp only [Option.map_eq_some_iff, Prod.mk.injEq, Prod.exists] at h
    obtain ⟨numeral, unit, rest', found, rfl, rfl, rfl⟩ := h
    have starts : marker <+: (splitSign t).2 := by
      simp only [Bool.and_eq_true, List.isPrefixOf_iff_prefix] at marked
      exact marked.2
    refine ⟨?_, numeral_ne_nil_of_readLength? found⟩
    have parts := append_of_readLength? found
    rw [print, length, List.append_assoc, List.append_assoc, parts,
      List.prefix_iff_eq_append.1 starts, splitSign_append]
  · cases h

/-- A length that is read is what the text starts with, and its number is not empty. -/
theorem append_of_read? {units : UnitTable} {marker t lead rest : Text} {token : Token}
    (h : read? units marker t = some (lead, token, rest)) :
    lead ++ token.print ++ rest = t ∧ token.numeral.print ≠ [] := by
  unfold read? at h
  split at h
  · rename_i found
    cases h
    exact append_of_readIgnored? found
  · simp only [Option.map_eq_some_iff, Prod.mk.injEq, Prod.exists] at h
    obtain ⟨numeral, unit, rest', found, rfl, rfl, rfl⟩ := h
    refine ⟨?_, numeral_ne_nil_of_readLength? found⟩
    simpa [print, length] using append_of_readLength? found

theorem length_lt_of_read? {units : UnitTable} {marker t lead rest : Text} {token : Token}
    (h : read? units marker t = some (lead, token, rest)) : rest.length < t.length := by
  obtain ⟨whole, filled⟩ := append_of_read? h
  have sizes := congrArg List.length whole
  have := List.length_pos_iff.2 filled
  simp only [print, length, List.length_append] at sizes
  omega

end Token

end EmScale
