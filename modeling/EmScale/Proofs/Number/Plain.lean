/-
  EmScale/Proofs/Number/Plain.lean
  ================================
  **Finite numbers are written plainly.**

  A numeral is plain if nothing in it is superfluous: no plus sign, no zero in front of the
  integer part, no point without digits behind it, no zero at the end of these, and no sign
  on zero.  A finite number other than zero is written as a plain numeral, because the
  decimal that is found for it is not zero and, if it has places, does not end in a zero
  (`Shortest.digits_spec`).
-/
import EmScale.Proofs.Number.Grid
import EmScale.Proofs.Number.Shortest

namespace EmScale

/-! ### Bits -/

namespace Binary64

theorem eq_of_toBits_eq {x y : Float} (h : x.toBits = y.toBits) : x = y := by
  rcases x with ⟨⟨a, ha⟩⟩
  rcases y with ⟨⟨b, hb⟩⟩
  cases h
  rfl

theorem le_exponent_of_decode {x : Float} {negative : Bool} {mantissa : Nat} {exponent : Int}
    (h : decode x = finite negative mantissa exponent) : -1074 ≤ exponent := by
  unfold decode at h
  dsimp only at h
  split at h
  · split at h <;> cases h
  · split at h
    · cases h
      exact Int.le_refl _
    · cases h
      omega

/-- A number without a mantissa is one of the two zeros. -/
theorem beq_zero_of_decode {x : Float} {negative : Bool} {exponent : Int}
    (h : decode x = finite negative 0 exponent) : (x == 0.0) = true := by
  have hbits : x.toBits = 0 ∨ x.toBits = 0x8000000000000000 := by
    have hsize := x.toBits.toNat_lt
    have hfraction : Nat.pow 2 52 = 4503599627370496 := by decide
    have hfield : Nat.pow 2 11 = 2048 := by decide
    rw [← UInt64.toNat_inj, ← UInt64.toNat_inj]
    unfold decode at h
    dsimp only at h
    rw [hfraction, hfield] at h
    split at h
    · split at h <;> cases h
    · split at h
      · injection h with _ hmantissa
        change x.toBits.toNat = 0 ∨ x.toBits.toNat = 9223372036854775808
        omega
      · injection h with _ hmantissa
        omega
  rcases hbits with hbits | hbits
  · have hzero : x = Float.ofBits 0 := eq_of_toBits_eq hbits
    rw [hzero]
    decide +kernel
  · have hzero : x = Float.ofBits 0x8000000000000000 := eq_of_toBits_eq hbits
    rw [hzero]
    decide +kernel

end Binary64

/-! ### Digits -/

theorem getLast?_toDigits (n : Nat) :
    (Nat.toDigits 10 n).getLast? = some (Nat.digitChar (n % 10)) := by
  rw [Nat.toDigits_eq_if (by decide)]
  split
  · rename_i hn
    rw [Nat.mod_eq_of_lt hn]
    rfl
  · exact List.getLast?_concat

/-- The first digit of a positive number is not zero. -/
theorem head?_toDigits {n : Nat} (hn : 0 < n) : (Nat.toDigits 10 n).head? ≠ some '0' := by
  induction n using Nat.strongRecOn with
  | ind n ih =>
    rw [Nat.toDigits_eq_if (by decide)]
    split
    · intro hhead
      have hzero := Nat.digitChar_eq_zero.mp (Option.some.inj hhead)
      omega
    · rw [List.head?_append_of_ne_nil _ Nat.toDigits_ne_nil]
      exact ih (n / 10) (by omega) (by omega)

/-! ### Plain numerals -/

namespace Numeral

/-- A numeral in which nothing is superfluous, and which is not zero. -/
structure IsPlain (n : Numeral) : Prop where
  sign : n.sign = [] ∨ n.sign = ['-']
  whole : n.whole ≠ [] ∧ ∀ c ∈ n.whole, c.isDigit = true
  leading : n.whole = ['0'] ∨ n.whole.head? ≠ some '0'
  point : n.point = [] ∧ n.fraction = [] ∨ n.point = ['.'] ∧ n.fraction ≠ []
  fraction : ∀ c ∈ n.fraction, c.isDigit = true
  trailing : n.fraction.getLast? ≠ some '0'
  nonzero : ∃ c ∈ n.whole ++ n.fraction, c ≠ '0'

theorem IsPlain.negate {n : Numeral} (h : n.IsPlain) : IsPlain { n with sign := ['-'] } :=
  ⟨Or.inr rfl, h.whole, h.leading, h.point, h.fraction, h.trailing, h.nonzero⟩

section Digits

variable {digits : Text} (hdigits : ∀ c ∈ digits, c.isDigit = true)

theorem isDigit_of_mem_replicate (zeros : Nat) :
    ∀ c ∈ List.replicate zeros '0', c.isDigit = true := by
  intro c hc
  rw [List.eq_of_mem_replicate hc]
  decide

theorem exists_mem_ne_zero (hne : digits ≠ []) (hhead : digits.head? ≠ some '0') :
    ∃ c ∈ digits, c ≠ '0' := by
  rcases digits with _ | ⟨c, digits⟩
  · exact absurd rfl hne
  · refine ⟨c, List.mem_cons_self, ?_⟩
    rintro rfl
    exact hhead rfl

include hdigits

/-- Digits and zeros behind them make an integer. -/
theorem isPlain_integer (hne : digits ≠ []) (hhead : digits.head? ≠ some '0') (zeros : Nat) :
    IsPlain ⟨[], digits ++ List.replicate zeros '0', [], []⟩ := by
  obtain ⟨c, hc, hnonzero⟩ := exists_mem_ne_zero hne hhead
  exact {
    sign := Or.inl rfl
    whole := ⟨List.append_ne_nil_of_left_ne_nil hne _,
      List.forall_mem_append.mpr ⟨hdigits, isDigit_of_mem_replicate zeros⟩⟩
    leading := by
      rw [List.head?_append_of_ne_nil _ hne]
      exact Or.inr hhead
    point := Or.inl ⟨rfl, rfl⟩
    fraction := nofun
    trailing := nofun
    nonzero := ⟨c, by simp [hc], hnonzero⟩ }

/-- Digits with a point between them. -/
theorem isPlain_split {whole fraction : Text} (hwhole : whole ≠ []) (hfraction : fraction ≠ [])
    (hsplit : whole ++ fraction = digits) (hhead : digits.head? ≠ some '0')
    (hlast : digits.getLast? ≠ some '0') : IsPlain ⟨[], whole, ['.'], fraction⟩ := by
  subst hsplit
  rw [List.forall_mem_append] at hdigits
  rw [List.head?_append_of_ne_nil _ hwhole] at hhead
  rw [List.getLast?_append_of_ne_nil _ hfraction] at hlast
  obtain ⟨c, hc, hnonzero⟩ := exists_mem_ne_zero hwhole hhead
  exact {
    sign := Or.inl rfl
    whole := ⟨hwhole, hdigits.1⟩
    leading := Or.inr hhead
    point := Or.inr ⟨rfl, hfraction⟩
    fraction := hdigits.2
    trailing := hlast
    nonzero := ⟨c, List.mem_append_left _ hc, hnonzero⟩ }

/-- Digits behind a point and zeros. -/
theorem isPlain_small (hne : digits ≠ []) (hhead : digits.head? ≠ some '0')
    (hlast : digits.getLast? ≠ some '0') (zeros : Nat) :
    IsPlain ⟨[], ['0'], ['.'], List.replicate zeros '0' ++ digits⟩ := by
  obtain ⟨c, hc, hnonzero⟩ := exists_mem_ne_zero hne hhead
  exact {
    sign := Or.inl rfl
    whole := ⟨by simp, by simp⟩
    leading := Or.inl rfl
    point := Or.inr ⟨rfl, List.append_ne_nil_of_right_ne_nil _ hne⟩
    fraction := List.forall_mem_append.mpr ⟨isDigit_of_mem_replicate zeros, hdigits⟩
    trailing := by
      rw [List.getLast?_append_of_ne_nil _ hne]
      exact hlast
    nonzero := ⟨c, by simp [hc], hnonzero⟩ }

end Digits

end Numeral

/-- **Positional notation is plain** for a decimal that is not zero and does not end in a zero
    behind the point. -/
theorem exists_isPlain_positional {n : Nat} {place : Int} (hn : 0 < n)
    (hlast : place < 0 → n % 10 ≠ 0) :
    ∃ m : Numeral, m.IsPlain ∧ m.sign = [] ∧ m.print = positional n place := by
  have hne : Nat.toDigits 10 n ≠ [] := Nat.toDigits_ne_nil
  have hdigits : ∀ c ∈ Nat.toDigits 10 n, c.isDigit = true := by
    intro c hc
    exact Nat.isDigit_of_mem_toDigits (by decide) (by decide) hc
  have hhead := head?_toDigits hn
  have hend : place < 0 → (Nat.toDigits 10 n).getLast? ≠ some '0' := by
    intro hplace hzero
    rw [getLast?_toDigits] at hzero
    exact hlast hplace (Nat.digitChar_eq_zero.mp (Option.some.inj hzero))
  unfold positional
  cases place with
  | ofNat zeros =>
    exact ⟨_, Numeral.isPlain_integer hdigits hne hhead zeros, rfl, by simp [Numeral.print]⟩
  | negSucc p =>
    have hend := hend (Int.negSucc_lt_zero p)
    dsimp only
    split
    · rename_i hplaces
      have hwhole : (Nat.toDigits 10 n).take ((Nat.toDigits 10 n).length - (p + 1)) ≠ [] := by
        simp only [ne_eq, List.take_eq_nil_iff, not_or]
        exact ⟨by omega, hne⟩
      have hfraction : (Nat.toDigits 10 n).drop ((Nat.toDigits 10 n).length - (p + 1)) ≠ [] := by
        rw [ne_eq, List.drop_eq_nil_iff]
        omega
      have hplain := Numeral.isPlain_split hdigits hwhole hfraction
        (List.take_append_drop ((Nat.toDigits 10 n).length - (p + 1)) _) hhead hend
      exact ⟨_, hplain, rfl, by simp [Numeral.print]⟩
    · have hplain := Numeral.isPlain_small hdigits hne hhead hend
        (p + 1 - (Nat.toDigits 10 n).length)
      exact ⟨_, hplain, rfl, by simp [Numeral.print]⟩

/-- **A finite number other than zero is written plainly.** -/
theorem exists_isPlain_printShortest {x : Float} (h : x.isFinite = true)
    (hzero : (x == 0.0) = false) :
    ∃ m : Numeral, m.IsPlain ∧ m.print = printShortest x := by
  obtain ⟨negative, mantissa, exponent, hdecode⟩ := Binary64.decode_of_isFinite h
  rcases mantissa with _ | mantissa
  · rw [Binary64.beq_zero_of_decode hdecode] at hzero
    cases hzero
  obtain ⟨hinside, hlast⟩ := Shortest.digits_spec .up mantissa.succ_pos
    (Binary64.le_exponent_of_decode hdecode)
  obtain ⟨m, hm, hsign, hprint⟩ := exists_isPlain_positional
    (Shortest.inside_pos mantissa.succ_pos hinside) hlast
  have hwritten : printShortest x = (if negative then ['-'] else []) ++ m.print := by
    unfold printShortest
    rw [hprint]
    simp only [hdecode]
  cases negative with
  | false => exact ⟨m, hm, hwritten.symm⟩
  | true =>
    refine ⟨{ m with sign := ['-'] }, hm.negate, ?_⟩
    rw [hwritten]
    simp [Numeral.print, hsign]

end EmScale
