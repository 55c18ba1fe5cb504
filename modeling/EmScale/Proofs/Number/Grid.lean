/-
  EmScale/Proofs/Number/Grid.lean
  ===============================
  **The search for the shortest decimal ends on the coarsest grid that it can.**

  The search goes through the grids from coarse to fine.  Its invariant is that no point of
  the next coarser grid rounds to the number.  At the start that holds because the grid is
  coarser than the number is large, and a step keeps it because a grid with any point in the
  interval has one next to the number (`onGrid?_ne_none`).  So the last digit that is found
  is not zero, or the decimal is an integer (`digits_spec`).
-/
import EmScale.Number.Shortest
import Mathlib

namespace EmScale.Shortest

variable {m n k : Nat} {e place : Int} {tie : Tie}

/-! ### One grid -/

theorem scale_pos (e place : Int) : 0 < scale e place :=
  Nat.mul_pos (Nat.pow_pos (by decide)) (Nat.pow_pos (by decide))

theorem unit_pos (e place : Int) : 0 < unit e place :=
  Nat.mul_pos (Nat.pow_pos (by decide)) (Nat.pow_pos (by decide))

/-- How far the interval reaches below the number, in quarters of the last binary place. -/
def gap (m : Nat) : Nat :=
  if m = Nat.pow 2 52 then 1 else 2

theorem gap_bounds (m : Nat) : 1 ≤ gap m ∧ gap m ≤ 2 := by
  unfold gap
  split <;> decide

theorem gap_mul_pos (m : Nat) (e place : Int) : 0 < gap m * scale e place :=
  Nat.mul_pos (gap_bounds m).1 (scale_pos e place)

/-- The interval of a positive number is one of positive numbers. -/
theorem gap_mul_lt (hm : 0 < m) : gap m * scale e place < 4 * (m * scale e place) := by
  have hgap := (gap_bounds m).2
  rw [← Nat.mul_assoc]
  apply Nat.mul_lt_mul_of_pos_right _ (scale_pos e place)
  omega

/-- The grid point is not below the interval, not above it, and on none of its ends if these
    are left out. -/
theorem inside_iff (hm : 0 < m) :
    inside m e place n = true ↔
      4 * (m * scale e place) ≤ 4 * (n * unit e place) + gap m * scale e place ∧
        4 * (n * unit e place) ≤ 4 * (m * scale e place) + 2 * scale e place ∧
        (m % 2 = 0 ∨
          4 * (m * scale e place) ≠ 4 * (n * unit e place) + gap m * scale e place ∧
            4 * (n * unit e place) ≠ 4 * (m * scale e place) + 2 * scale e place) := by
  have hlow : (4 * m - gap m) * scale e place =
      4 * (m * scale e place) - gap m * scale e place := by
    rw [Nat.sub_mul, Nat.mul_assoc]
  have hhigh : (4 * m + 2) * scale e place = 4 * (m * scale e place) + 2 * scale e place := by
    rw [Nat.add_mul, Nat.mul_assoc]
  have hpoint : 4 * n * unit e place = 4 * (n * unit e place) := Nat.mul_assoc ..
  have hless : gap m * scale e place < 4 * (m * scale e place) := gap_mul_lt hm
  unfold inside
  change (if m % 2 = 0 then
      decide ((4 * m - gap m) * scale e place ≤ 4 * n * unit e place) &&
        decide (4 * n * unit e place ≤ (4 * m + 2) * scale e place)
    else decide ((4 * m - gap m) * scale e place < 4 * n * unit e place) &&
        decide (4 * n * unit e place < (4 * m + 2) * scale e place)) = true ↔ _
  rw [hlow, hhigh, hpoint]
  split
  · rename_i heven
    simp only [Bool.and_eq_true, decide_eq_true_eq]
    omega
  · rename_i hodd
    simp only [Bool.and_eq_true, decide_eq_true_eq]
    omega

theorem inside_pos (hm : 0 < m) (h : inside m e place n = true) : 0 < n := by
  rw [inside_iff hm] at h
  by_contra hzero
  have hn : n = 0 := by omega
  have hless : gap m * scale e place < 4 * (m * scale e place) := gap_mul_lt hm
  rw [hn, Nat.zero_mul] at h
  omega

/-- Between the number and a point of the interval there are only points of the interval. -/
theorem inside_of_between (hm : 0 < m) (h : inside m e place k = true)
    (hbetween : (k ≤ n ∧ n * unit e place ≤ m * scale e place) ∨
      (n ≤ k ∧ m * scale e place ≤ n * unit e place)) : inside m e place n = true := by
  have hgap := gap_mul_pos m e place
  have hscale := scale_pos e place
  rw [inside_iff hm] at h ⊢
  rcases hbetween with ⟨hkn, hbelow⟩ | ⟨hnk, habove⟩
  · have hpoints : k * unit e place ≤ n * unit e place := Nat.mul_le_mul_right _ hkn
    omega
  · have hpoints : n * unit e place ≤ k * unit e place := Nat.mul_le_mul_right _ hnk
    omega

/-- The number itself is in its interval. -/
theorem inside_of_eq (hm : 0 < m) (h : n * unit e place = m * scale e place) :
    inside m e place n = true := by
  have hgap := gap_mul_pos m e place
  have hscale := scale_pos e place
  rw [inside_iff hm, h]
  omega

theorem inside_of_onGrid? (h : onGrid? tie m e place = some n) : inside m e place n = true := by
  unfold onGrid? at h
  dsimp only at h
  split at h
  · cases h
    split <;> assumption
  · cases h
    assumption
  · cases h
    assumption
  · cases h

/-- **A grid with a point in the interval has one next to the number.** -/
theorem onGrid?_ne_none (hm : 0 < m) (h : inside m e place k = true) :
    onGrid? tie m e place ≠ none := by
  have hbelow : m * scale e place / unit e place * unit e place ≤ m * scale e place :=
    Nat.div_mul_le_self _ _
  have habove : m * scale e place ≤ (m * scale e place / unit e place + 1) * unit e place :=
    (Nat.lt_mul_of_div_lt (Nat.lt_succ_self _) (unit_pos e place)).le
  have hnear : inside m e place (m * scale e place / unit e place) = true ∨
      inside m e place (m * scale e place / unit e place + 1) = true := by
    rcases Nat.lt_or_ge (m * scale e place / unit e place) k with hk | hk
    · exact Or.inr (inside_of_between hm h (Or.inr ⟨hk, habove⟩))
    · exact Or.inl (inside_of_between hm h (Or.inl ⟨hk, hbelow⟩))
  unfold onGrid?
  dsimp only
  rcases hnear with hnear | hnear <;> rw [hnear] <;> split <;> simp_all

/-! ### The next coarser grid -/

theorem scale_of_neg (h : place < 0) : scale e place = 10 * scale e (place + 1) := by
  have hplaces : (-place).toNat = (-(place + 1)).toNat + 1 := by omega
  unfold scale
  rw [hplaces]
  change Nat.pow 2 e.toNat * (Nat.pow 10 (-(place + 1)).toNat * 10) = _
  ring

theorem unit_of_neg (h : place < 0) : unit e place = unit e (place + 1) := by
  have hplaces : place.toNat = (place + 1).toNat := by omega
  unfold unit
  rw [hplaces]

/-- A point whose last digit is zero is a point of the next coarser grid. -/
theorem inside_coarser (hm : 0 < m) (hplace : place < 0) (h : inside m e place (10 * k) = true) :
    inside m e (place + 1) k = true := by
  rw [inside_iff hm] at h ⊢
  rw [scale_of_neg hplace, unit_of_neg hplace] at h
  generalize scale e (place + 1) = s at h ⊢
  generalize unit e (place + 1) = u at h ⊢
  have hnumber : m * (10 * s) = 10 * (m * s) := Nat.mul_left_comm ..
  have hpoint : 10 * k * u = 10 * (k * u) := Nat.mul_assoc ..
  have hgap : gap m * (10 * s) = 10 * (gap m * s) := Nat.mul_left_comm ..
  rw [hnumber, hpoint, hgap] at h
  omega

/-! ### The search -/

/-- No point of the next coarser grid is in the interval, unless the grid is one of integers. -/
def IsCoarsest (m : Nat) (e place : Int) : Prop :=
  place < 0 → ∀ k, inside m e (place + 1) k = false

/-- What the search is after: a point of the interval whose last digit is not zero, unless it
    is an integer. -/
def IsShortest (m : Nat) (e : Int) (found : Nat × Int) : Prop :=
  inside m e found.2 found.1 = true ∧ (found.2 < 0 → found.1 % 10 ≠ 0)

theorem isShortest_of_inside (hm : 0 < m) (hcoarse : IsCoarsest m e place)
    (h : inside m e place n = true) : IsShortest m e (n, place) := by
  refine ⟨h, ?_⟩
  intro hplace hlast
  obtain ⟨k, rfl⟩ := Nat.dvd_of_mod_eq_zero hlast
  have hcoarser := inside_coarser hm hplace h
  rw [hcoarse hplace k] at hcoarser
  cases hcoarser

/-- A step to the next finer grid keeps the invariant. -/
theorem isCoarsest_of_none (hm : 0 < m) (h : onGrid? tie m e place = none) :
    IsCoarsest m e (place - 1) := by
  intro _ k
  rw [Int.sub_add_cancel]
  by_contra hk
  exact onGrid?_ne_none hm (by simpa using hk) h

theorem unit_dvd_scale (e : Int) : unit e (min e 0) ∣ scale e (min e 0) := by
  unfold unit scale
  rcases Int.lt_or_le e 0 with he | he
  · rw [Int.min_eq_left he.le, Int.toNat_of_nonpos he.le]
    change 2 ^ (-e).toNat * 1 ∣ 1 * 10 ^ (-e).toNat
    rw [Nat.mul_one, Nat.one_mul]
    exact pow_dvd_pow_of_dvd (by decide) _
  · rw [Int.min_eq_right he, Int.toNat_of_nonpos (Int.neg_nonpos_of_nonneg he)]
    exact one_dvd _

/-- On the grid of its last binary place the number is a point. -/
theorem inside_last (hm : 0 < m) :
    inside m e (min e 0) (m * scale e (min e 0) / unit e (min e 0)) = true := by
  apply inside_of_eq hm
  exact Nat.div_mul_cancel (Dvd.dvd.mul_left (unit_dvd_scale e) m)

theorem search_spec (hm : 0 < m) {steps : Nat} {place : Int} (hlast : place - steps = min e 0)
    (hcoarse : IsCoarsest m e place) : IsShortest m e (search tie m e steps place) := by
  induction steps generalizing place with
  | zero =>
    have hplace : place = min e 0 := by simpa using hlast
    subst hplace
    exact isShortest_of_inside hm hcoarse (inside_last hm)
  | succ steps ih =>
    unfold search
    split
    · rename_i n hfound
      exact isShortest_of_inside hm hcoarse (inside_of_onGrid? hfound)
    · rename_i hnone
      apply ih
      · rw [← hlast]
        push_cast
        ring
      · exact isCoarsest_of_none hm hnone

/-! ### The first grid -/

/-- The slope `0.30103` is close enough to the logarithm of two for all exponents there are. -/
theorem ten_pow_le {l : Nat} (h : l < 1100) :
    3 * 10 ^ ((l * 30103 + 99999) / 100000) ≤ 2000 * 2 ^ l := by
  have hall : ∀ l < 1100, 3 * 10 ^ ((l * 30103 + 99999) / 100000) ≤ 2000 * 2 ^ l := by
    decide +kernel
  exact hall l h

/-- **The first grid is too coarse for the number**, if it is not a grid of integers. -/
theorem isCoarsest_first (hm : 0 < m) (he : -1074 ≤ e) :
    IsCoarsest m e ((Nat.log2 m + 1 + e) * 30103 / 100000 + 2) := by
  intro hplace k
  by_contra hk
  have hinside : inside m e ((Nat.log2 m + 1 + e) * 30103 / 100000 + 2 + 1) k = true := by
    simpa using hk
  have hpos := inside_pos hm hinside
  have hhigh := ((inside_iff hm).mp hinside).2.1
  obtain ⟨l, hl⟩ : ∃ l : Nat, (Nat.log2 m + 1 + e : Int) = -l :=
    ⟨(-(Nat.log2 m + 1 + e : Int)).toNat, by omega⟩
  rw [hl] at hplace hhigh
  obtain ⟨q, hq⟩ : ∃ q : Nat, (-l * 30103 / 100000 + 2 + 1 : Int) = -q :=
    ⟨(-(-l * 30103 / 100000 + 2 + 1 : Int)).toNat, by omega⟩
  rw [hq] at hhigh
  have hunit : unit e (-q) = 2 ^ (Nat.log2 m + 1) * 2 ^ l := by
    have hexponent : (-e).toNat = Nat.log2 m + 1 + l := by omega
    have hplaces : (-q : Int).toNat = 0 := by omega
    rw [unit, hexponent, hplaces, ← pow_add]
    exact Nat.mul_one _
  have hscale : scale e (-q) = 10 ^ q := by
    have hexponent : e.toNat = 0 := by omega
    have hplaces : (- -q : Int).toNat = q := by omega
    rw [scale, hexponent, hplaces]
    exact Nat.one_mul _
  have hbits : m < 2 ^ (Nat.log2 m + 1) := Nat.lt_log2_self
  have hpowers : 3 * 10 ^ q ≤ 2 * 2 ^ l := by
    have hbound := ten_pow_le (show l < 1100 by omega)
    have hplaces : (l * 30103 + 99999) / 100000 = q + 3 := by omega
    rw [hplaces, pow_add] at hbound
    omega
  have hten : 0 < 10 ^ q := Nat.pow_pos (by decide)
  rw [hunit, hscale] at hhigh
  generalize 2 ^ (Nat.log2 m + 1) = b at hhigh hbits
  generalize 2 ^ l = x at hhigh hpowers
  generalize 10 ^ q = y at hhigh hpowers hten
  have hpoint : b * x ≤ k * (b * x) := Nat.le_mul_of_pos_left _ hpos
  have hnumber : m * y + y ≤ b * y := by
    rw [← Nat.succ_mul]
    exact Nat.mul_le_mul_right _ hbits
  have hgrid : 3 * (b * y) ≤ 2 * (b * x) := by
    rw [Nat.mul_left_comm 3, Nat.mul_left_comm 2]
    exact Nat.mul_le_mul_left _ hpowers
  omega

/-- **The decimal that is found is as short as it looks.** -/
theorem digits_spec (tie : Tie) (hm : 0 < m) (he : -1074 ≤ e) :
    IsShortest m e (digits tie m e) := by
  unfold digits
  dsimp only
  have hfiner : min e 0 ≤ (Nat.log2 m + 1 + e) * 30103 / 100000 + 2 := by omega
  rw [Int.max_eq_left hfiner]
  exact search_spec hm (by omega) (isCoarsest_first hm he)

end EmScale.Shortest
