/-
  EmScale/Proofs/Number/Rounding.lean
  ===================================
  **Rounding in two steps is rounding once.**

  A length is cut down to one place more than asked for before it is rounded to the places
  asked for.  In general a number that is rounded twice may end on the wrong side of a half.
  Here it does not, whatever its sign: a half of the last place is a whole number of the place
  behind it, so cutting down there moves no number across a half
  (`floor_floor_tenths_add_half`).

  Everything is read in exact arithmetic.  The rule that runs is the same formula over
  floating point numbers.
-/
import EmScale.Number.Rounding
import Mathlib

namespace EmScale

/-- The rounding rule in exact arithmetic. -/
def toFixedExact (x : ℚ) (precision : Nat) : ℚ :=
  toFixedBy (fun y => (⌊y⌋ : ℚ)) Nat.cast x precision

/-- A number rounded to decimal places in one step, a half going up. -/
def roundHalfUp (x : ℚ) (places : Nat) : ℚ :=
  ⌊x * 10 ^ places + 1 / 2⌋ / 10 ^ places

/-! ### Rounding once -/

section Once

variable (places : Nat)

theorem roundHalfUp_eq_round (x : ℚ) :
    roundHalfUp x places = round (x * 10 ^ places) / 10 ^ places := by
  rw [roundHalfUp, round_eq]

/-- Rounding moves a number by half of the last place at most. -/
theorem abs_roundHalfUp_sub_le (x : ℚ) :
    |roundHalfUp x places - x| ≤ 1 / (2 * 10 ^ places) := by
  have hpos : (0 : ℚ) < 10 ^ places := by positivity
  have hscaled : roundHalfUp x places - x =
      (round (x * 10 ^ places) - x * 10 ^ places) / 10 ^ places := by
    rw [roundHalfUp_eq_round, sub_div, mul_div_cancel_right₀ x hpos.ne']
  calc |roundHalfUp x places - x|
      = |x * 10 ^ places - round (x * 10 ^ places)| / 10 ^ places := by
        rw [hscaled, abs_div, abs_of_pos hpos, abs_sub_comm]
    _ ≤ 1 / 2 / 10 ^ places := by
        have hround := abs_sub_round (x * 10 ^ places)
        gcongr
    _ = 1 / (2 * 10 ^ places) := div_div _ _ _

theorem monotone_roundHalfUp : Monotone fun x => roundHalfUp x places := by
  intro x y hxy
  have hfloor : ⌊x * 10 ^ places + 1 / 2⌋ ≤ ⌊y * 10 ^ places + 1 / 2⌋ := by
    apply Int.floor_le_floor
    gcongr
  have hcast : (⌊x * 10 ^ places + 1 / 2⌋ : ℚ) ≤ ⌊y * 10 ^ places + 1 / 2⌋ :=
    Int.cast_le.mpr hfloor
  exact div_le_div_of_nonneg_right hcast (by positivity)

/-- A number that has no more places stays as it is. -/
theorem roundHalfUp_intCast_div (n : ℤ) :
    roundHalfUp (n / 10 ^ places) places = n / 10 ^ places := by
  have hne : (10 : ℚ) ^ places ≠ 0 := by positivity
  rw [roundHalfUp_eq_round, div_mul_cancel₀ _ hne, round_intCast]

theorem roundHalfUp_roundHalfUp (x : ℚ) :
    roundHalfUp (roundHalfUp x places) places = roundHalfUp x places :=
  roundHalfUp_intCast_div places _

end Once

/-! ### Rounding in two steps -/

/-- **A number may be cut down to tenths before it is rounded**, because a half is a whole
    number of tenths. -/
theorem floor_floor_tenths_add_half (y : ℚ) :
    ⌊(⌊y * 10⌋ : ℚ) / 10 + 1 / 2⌋ = ⌊y + 1 / 2⌋ := by
  -- Both floors are at least `n` where `y` is at least `n` less a half, that is `10 * n - 5` tenths.
  apply eq_of_forall_le_iff
  intro n
  have htenths : ((10 * n - 5 : ℤ) : ℚ) = 10 * n - 5 := by
    push_cast
    rfl
  have hcut : (10 * n - 5 : ℚ) ≤ ⌊y * 10⌋ ↔ (10 * n - 5 : ℚ) ≤ y * 10 := by
    rw [← htenths, Int.cast_le, Int.le_floor]
  rw [Int.le_floor, Int.le_floor]
  constructor
  · intro h
    have hwhole := hcut.mp (by linarith)
    linarith
  · intro h
    have hwhole := hcut.mpr (by linarith)
    linarith

/-- **The two steps round once**, to the places that are kept. -/
theorem toFixedExact_eq (x : ℚ) (precision : Nat) :
    toFixedExact x precision = roundHalfUp x (min precision maxUnitPrecision) := by
  unfold toFixedExact toFixedBy roundHalfUp
  generalize min precision maxUnitPrecision = places
  have hscale : ((Nat.pow 10 (places + 1) : ℕ) : ℚ) = 10 ^ places * 10 := by
    rw [Nat.pow_eq]
    push_cast
    exact pow_succ 10 places
  have hten : (10.0 : ℚ) = 10 := by norm_num
  have hhalf : (0.5 : ℚ) = 1 / 2 := by norm_num
  dsimp only
  rw [hscale, hten, hhalf, ← mul_assoc, floor_floor_tenths_add_half]
  exact mul_div_mul_right _ _ (by norm_num)

/-- A half goes up below zero as well. -/
example : toFixedExact (-15 / 1000) 2 = -1 / 100 := by cbv

/-- **Rounding in two steps is rounding half up**, to no more than fifteen places.  So a number
    moves by half of the last place at most, numbers stay in order, and a number that was rounded
    stays as it is. -/
theorem toFixedExact_rounds_half_up (x : ℚ) (precision : Nat) :
    toFixedExact x precision = roundHalfUp x (min precision 15) ∧
      |toFixedExact x precision - x| ≤ 1 / (2 * 10 ^ min precision 15) ∧
      (Monotone fun y => toFixedExact y precision) ∧
      toFixedExact (toFixedExact x precision) precision = toFixedExact x precision := by
  refine ⟨toFixedExact_eq x precision, ?_⟩
  simp only [toFixedExact_eq]
  exact ⟨abs_roundHalfUp_sub_le _ x, monotone_roundHalfUp _, roundHalfUp_roundHalfUp _ x⟩

end EmScale
