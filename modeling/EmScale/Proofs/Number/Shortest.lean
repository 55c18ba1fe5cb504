/-
  EmScale/Proofs/Number/Shortest.lean
  ===================================
  **Finite numbers are written with digits, a point and a minus sign.**

  A number that is finite decodes to a mantissa and an exponent, so neither `inf` nor `NaN`
  is written for it, and its decimal is written without an exponent.
-/
import EmScale.Number.Rounding
import EmScale.Proofs.Number.Numeral

namespace EmScale

namespace Binary64

theorem toNat_unpackExponent (x : Float) :
    (@Float.Model.UnpackedFloat.unpackExponent .binary64 x.toBits.toBitVec).toNat =
      x.toBits.toNat / Nat.pow 2 52 % Nat.pow 2 11 := by
  change (x.toBits.toNat >>> 52) % Nat.pow 2 11 = _
  rw [Nat.shiftRight_eq_div_pow]

theorem decode_of_isFinite {x : Float} (h : x.isFinite = true) :
    ∃ negative mantissa exponent, decode x = finite negative mantissa exponent := by
  have hfield : x.toBits.toNat / Nat.pow 2 52 % Nat.pow 2 11 ≠ 2047 := by
    intro hfield
    rw [← toNat_unpackExponent] at hfield
    have hones := BitVec.eq_of_toNat_eq (hfield.trans (by decide : 2047 = (-1#11).toNat))
    have hunpacked : x.toModel.unpack.isFinite = true := h
    unfold Float.Model.unpack Float.Model.UnpackedFloat.unpack at hunpacked
    simp only [Float.toBits] at hones hunpacked
    rw [if_pos hones] at hunpacked
    split at hunpacked <;> cases hunpacked
  unfold decode
  simp only [hfield, if_false]
  split <;> exact ⟨_, _, _, rfl⟩

end Binary64

/-! ### Written numbers -/

/-- The characters that finite numbers are written with. -/
def isNumberCharacter (c : Char) : Bool :=
  c.isDigit || c == '.' || c == '-'

/-- A text that a finite number may be written as. -/
def Text.IsNumber (t : Text) : Prop :=
  t ≠ [] ∧ ∀ c ∈ t, isNumberCharacter c = true

theorem Numeral.IsWritten.isNumber {n : Numeral} (h : n.IsWritten) (hplus : n.sign ≠ ['+']) :
    Text.IsNumber n.print := by
  constructor
  · intro hnil
    simp only [print, List.append_eq_nil_iff] at hnil
    exact h.filled ⟨hnil.1.1.2, hnil.2⟩
  · intro c hc
    simp only [print, List.mem_append] at hc
    rcases hc with ((hc | hc) | hc) | hc
    · rcases h.sign with hsign | hsign | hsign
      · rw [hsign] at hc
        cases hc
      · exact absurd hsign hplus
      · rw [hsign] at hc
        simp [isNumberCharacter, List.mem_singleton.mp hc]
    · simp [isNumberCharacter, h.whole c hc]
    · rcases h.point with ⟨hpoint, -⟩ | hpoint <;> rw [hpoint] at hc
      · cases hc
      · simp [isNumberCharacter, List.mem_singleton.mp hc]
    · simp [isNumberCharacter, h.fraction c hc]

/-- **Positional notation is that of numerals** without a sign. -/
theorem exists_numeral_positional (n : Nat) (place : Int) :
    ∃ m : Numeral, m.IsWritten ∧ m.sign = [] ∧ m.print = positional n place := by
  have hne : Nat.toDigits 10 n ≠ [] := Nat.toDigits_ne_nil
  have hdigits : ∀ c ∈ Nat.toDigits 10 n, c.isDigit = true := by
    intro c hc
    exact Nat.isDigit_of_mem_toDigits (by decide) (by decide) hc
  have hzeros : ∀ count : Nat, ∀ c ∈ List.replicate count '0', c.isDigit = true := by
    intro count c hc
    rw [List.eq_of_mem_replicate hc]
    decide
  unfold positional
  cases place with
  | ofNat zeros =>
    refine ⟨⟨[], Nat.toDigits 10 n ++ List.replicate zeros '0', [], []⟩, ?_, rfl, ?_⟩
    · exact ⟨Or.inl rfl, List.forall_mem_append.mpr ⟨hdigits, hzeros zeros⟩, Or.inl ⟨rfl, rfl⟩,
        by simp, by simp [hne]⟩
    · simp [Numeral.print]
  | negSucc p =>
    dsimp only
    split
    · rename_i hplaces
      refine ⟨⟨[], (Nat.toDigits 10 n).take ((Nat.toDigits 10 n).length - (p + 1)), ['.'],
        (Nat.toDigits 10 n).drop ((Nat.toDigits 10 n).length - (p + 1))⟩, ?_, rfl, ?_⟩
      · refine ⟨Or.inl rfl, ?_, Or.inr rfl, ?_, ?_⟩
        · intro c hc
          exact hdigits c (List.mem_of_mem_take hc)
        · intro c hc
          exact hdigits c (List.mem_of_mem_drop hc)
        · rintro ⟨-, hnil⟩
          rw [List.drop_eq_nil_iff] at hnil
          omega
      · simp [Numeral.print]
    · refine ⟨⟨[], ['0'], ['.'], List.replicate (p + 1 - (Nat.toDigits 10 n).length) '0' ++
        Nat.toDigits 10 n⟩, ?_, rfl, ?_⟩
      · exact ⟨Or.inl rfl, by simp, Or.inr rfl,
          List.forall_mem_append.mpr ⟨hzeros _, hdigits⟩, by simp⟩
      · simp [Numeral.print]

/-- **A finite number is written as a numeral** without an exponent, with a minus sign or
    none. -/
theorem exists_numeral_printShortest {x : Float} (h : x.isFinite = true) :
    ∃ m : Numeral, m.IsWritten ∧ m.sign ≠ ['+'] ∧ m.print = printShortest x := by
  obtain ⟨negative, mantissa, exponent, hdecode⟩ := Binary64.decode_of_isFinite h
  have hsigned : ∀ m : Numeral, m.IsWritten → m.sign = [] →
      ∃ m' : Numeral, m'.IsWritten ∧ m'.sign ≠ ['+'] ∧
        m'.print = (if negative then ['-'] else []) ++ m.print := by
    intro m hm hsign
    cases negative with
    | false => exact ⟨m, hm, by simp [hsign], by simp⟩
    | true =>
      refine ⟨{ m with sign := ['-'] }, ?_, by simp, by simp [Numeral.print, hsign]⟩
      exact ⟨Or.inr (Or.inr rfl), hm.whole, hm.point, hm.fraction, hm.filled⟩
  unfold printShortest
  simp only [hdecode]
  cases mantissa with
  | zero =>
    exact hsigned ⟨[], ['0'], [], []⟩
      ⟨Or.inl rfl, by simp, Or.inl ⟨rfl, rfl⟩, by simp, by simp⟩ rfl
  | succ mantissa =>
    obtain ⟨m, hm, hsign, hprint⟩ := exists_numeral_positional
      (Shortest.digits .up (mantissa + 1) exponent).1 (Shortest.digits .up (mantissa + 1) exponent).2
    have hfound := hsigned m hm hsign
    rw [hprint] at hfound
    exact hfound

end EmScale
