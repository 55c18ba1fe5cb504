/-
  EmScale/Proofs/Text.lean
  ========================
  **What stands at the edges of a text.**

  Every cut that a reader makes is a longest run: of blanks, of the characters of a name,
  of digits.  A longest run in front of a known rest is found again when it is put in front
  of any rest that the run cannot go on into.  This file states that once
  (`takeWhile_append_of_startsOff`), and says the same of blanks at the end of a text
  (`trimEnd_append_of_isBlank`).
-/
import EmScale.Text
import Mathlib

namespace EmScale.Text

open Unicode (isWhiteSpace)

/-! ### Runs at the start -/

/-- The first character of `t`, if there is one, is not of the kind `p`. -/
def StartsOff (p : Char → Bool) (t : Text) : Prop :=
  ∀ c ∈ t.head?, p c = false

instance (p : Char → Bool) (t : Text) : Decidable (StartsOff p t) :=
  decidable_of_iff (t.head?.any p = false) (by cases t <;> simp [StartsOff])

@[simp] theorem startsOff_nil (p : Char → Bool) : StartsOff p [] := by
  intro c hc
  cases hc

@[simp] theorem startsOff_cons {p : Char → Bool} {c : Char} {t : Text} :
    StartsOff p (c :: t) ↔ p c = false := by
  simp [StartsOff]

theorem StartsOff.append {p : Char → Bool} {a : Text} (ha : StartsOff p a) {b : Text}
    (hb : a = [] → StartsOff p b) : StartsOff p (a ++ b) := by
  cases a with
  | nil => exact hb rfl
  | cons c a => exact startsOff_cons.mpr (startsOff_cons.mp ha)

theorem StartsOff.of_append {p : Char → Bool} {a b : Text} (h : StartsOff p (a ++ b)) :
    StartsOff p a := by
  cases a with
  | nil => exact startsOff_nil p
  | cons c a => exact startsOff_cons.mpr (startsOff_cons.mp h)

theorem StartsOff.mono {p q : Char → Bool} (h : ∀ c, q c = true → p c = true) {t : Text}
    (ht : StartsOff p t) : StartsOff q t := by
  intro c hc
  by_contra hq
  have hp := h c (by simpa using hq)
  rw [ht c hc] at hp
  cases hp

theorem startsOff_dropWhile (p : Char → Bool) (t : Text) : StartsOff p (t.dropWhile p) := by
  intro c hc
  have h := List.head?_dropWhile_not p t
  rw [Option.mem_def.mp hc] at h
  simpa using h

theorem mem_takeWhile {p : Char → Bool} {t : Text} {c : Char} (hc : c ∈ t.takeWhile p) :
    p c = true :=
  List.mem_takeWhile_imp hc

/-- **A run is found again.**  A text of characters of one kind in front of a text that does
    not start with one is cut between the two. -/
theorem takeWhile_append_of_startsOff {p : Char → Bool} {a b : Text}
    (ha : ∀ c ∈ a, p c = true) (hb : StartsOff p b) :
    (a ++ b).takeWhile p = a ∧ (a ++ b).dropWhile p = b := by
  rw [List.takeWhile_append_of_pos ha, List.dropWhile_append_of_pos ha]
  cases b with
  | nil => simp
  | cons c b =>
    have hc : p c = false := startsOff_cons.mp hb
    simp [hc]

/-- **What a text starts with shows in front of any rest**, if it is a run that the rest does
    not go on with. -/
theorem prefix_append_iff {p : Char → Bool} {a t rest : Text} (ha : ∀ c ∈ a, p c = true)
    (hrest : StartsOff p rest) : a <+: t ++ rest ↔ a <+: t := by
  induction t generalizing a with
  | nil =>
    rcases a with _ | ⟨c, a⟩
    · simp
    · rcases rest with _ | ⟨d, rest⟩
      · simp
      · have hc : c ≠ d := by
          rintro rfl
          simp [ha c (by simp)] at hrest
        simp [hc]
  | cons d t ih =>
    rcases a with _ | ⟨c, a⟩
    · simp
    · simp only [List.cons_append, List.cons_prefix_cons,
        ih fun x hx => ha x (List.mem_cons_of_mem c hx)]

/-! ### Blanks -/

/-- Nothing but blanks. -/
def IsBlank (t : Text) : Prop :=
  ∀ c ∈ t, isWhiteSpace c = true

instance (t : Text) : Decidable (IsBlank t) :=
  decidable_of_iff (t.all isWhiteSpace = true) List.all_eq_true

@[simp] theorem isBlank_nil : IsBlank [] := by
  intro c hc
  cases hc

@[simp] theorem isBlank_cons {c : Char} {t : Text} :
    IsBlank (c :: t) ↔ isWhiteSpace c = true ∧ IsBlank t := by
  simp [IsBlank]

theorem isBlank_takeWhile (t : Text) : IsBlank (t.takeWhile isWhiteSpace) := by
  intro c hc
  exact mem_takeWhile hc

/-! ### Blanks at the end -/

/-- A text that does not end with a blank. -/
def IsTight (t : Text) : Prop :=
  trimEnd t = t

instance (t : Text) : Decidable (IsTight t) := by
  unfold IsTight; infer_instance

@[simp] theorem isTight_nil : IsTight [] := rfl

theorem trimEnd_eq_nil_iff {t : Text} : trimEnd t = [] ↔ IsBlank t := by
  induction t with
  | nil => simp [trimEnd]
  | cons c t ih =>
    simp only [trimEnd, isBlank_cons]
    rcases hk : trimEnd t with _ | ⟨k, kept⟩
    · have hblank : IsBlank t := ih.mp hk
      by_cases hc : isWhiteSpace c = true
      · simp [hc, hblank]
      · simp [hc]
    · have hblank : ¬ IsBlank t := fun h => by simp [ih.mpr h] at hk
      simp [hblank]

theorem trimEnd_append_of_isBlank {a b : Text} (hb : IsBlank b) :
    trimEnd (a ++ b) = trimEnd a := by
  induction a with
  | nil => simpa [trimEnd] using trimEnd_eq_nil_iff.mpr hb
  | cons c a ih => simp only [List.cons_append, trimEnd, ih]

theorem trimEnd_append_of_not_isBlank {a b : Text} (hb : ¬ IsBlank b) :
    trimEnd (a ++ b) = a ++ trimEnd b := by
  induction a with
  | nil => rfl
  | cons c a ih =>
    have hkept : a ++ trimEnd b ≠ [] := by
      intro h
      exact hb (trimEnd_eq_nil_iff.mp (List.append_eq_nil_iff.mp h).2)
    rcases hk : a ++ trimEnd b with _ | ⟨k, kept⟩
    · contradiction
    · simp only [List.cons_append, trimEnd, ih, hk]

theorem isTight_trimEnd (t : Text) : IsTight (trimEnd t) := by
  induction t with
  | nil => rfl
  | cons c t ih =>
    unfold IsTight at ih ⊢
    rcases hk : trimEnd t with _ | ⟨k, kept⟩
    · by_cases hc : isWhiteSpace c = true
      · simp [trimEnd, hk, hc]
      · simp [trimEnd, hk, hc]
    · rw [hk] at ih
      have hkept : trimEnd (c :: t) = c :: k :: kept := by simp [trimEnd, hk]
      rw [hkept, trimEnd, ih]

theorem isBlank_trailing (t : Text) : IsBlank (trailing t) := by
  induction t with
  | nil => exact isBlank_nil
  | cons c t ih =>
    unfold trailing at ih ⊢
    rcases hk : trimEnd t with _ | ⟨k, kept⟩
    · have hblank : IsBlank t := trimEnd_eq_nil_iff.mp hk
      by_cases hc : isWhiteSpace c = true
      · simp [trimEnd, hk, hc, hblank]
      · simp [trimEnd, hk, hc, hblank]
    · rw [hk] at ih
      simpa [trimEnd, hk] using ih

/-- **Blanks at the end are found again.** -/
theorem trimEnd_append_of_isTight {a b : Text} (ha : IsTight a) (hb : IsBlank b) :
    trimEnd (a ++ b) = a ∧ trailing (a ++ b) = b := by
  have hkept : trimEnd (a ++ b) = a := (trimEnd_append_of_isBlank hb).trans ha
  refine ⟨hkept, ?_⟩
  rw [trailing, hkept, List.drop_left]

theorem isTight_append_iff {a b : Text} (hb : b ≠ []) : IsTight (a ++ b) ↔ IsTight b := by
  by_cases hblank : IsBlank b
  · have hlost : ¬ IsTight b := by
      intro h
      exact hb (h.symm.trans (trimEnd_eq_nil_iff.mpr hblank))
    have hlost' : ¬ IsTight (a ++ b) := by
      intro h
      unfold IsTight at h
      rw [trimEnd_append_of_isBlank hblank] at h
      have hwhole := congrArg List.length (trimEnd_append_trailing a)
      have hlen := congrArg List.length h
      have hpos := List.length_pos_iff.mpr hb
      simp only [List.length_append] at hwhole hlen
      omega
    exact iff_of_false hlost' hlost
  · unfold IsTight
    rw [trimEnd_append_of_not_isBlank hblank, List.append_cancel_left_eq]

theorem isTight_singleton {c : Char} : IsTight [c] ↔ isWhiteSpace c = false := by
  simp [IsTight, trimEnd]

/-! ### Parts -/

theorem includes_iff {part t : Text} : includes part t = true ↔ part <:+: t := by
  induction t with
  | nil => simp [includes]
  | cons c t ih =>
    rw [includes, Bool.or_eq_true, List.isPrefixOf_iff_prefix, ih, List.infix_cons_iff]

theorem includes_append {part t : Text} (h : includes part t = true) (b : Text) :
    includes part (t ++ b) = true := by
  rw [includes_iff] at h ⊢
  exact h.trans (List.prefix_append t b).isInfix

end EmScale.Text
