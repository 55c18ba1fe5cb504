/-
  EmScale/Proofs/Number/Numeral.lean
  ==================================
  **Which numerals a text starts with.**

  `Numeral.IsWritten` says what the parts of a numeral are like.  A text starts with such a
  numeral, and reading finds it, if and only if neither a digit nor, where the numeral has
  no point yet, a point follows (`Numeral.read?_eq_some_iff`).
-/
import EmScale.Number.Numeral
import EmScale.Proofs.Text

namespace EmScale

open Text (StartsOff)

def isSign (c : Char) : Bool :=
  c == '+' || c == '-'

theorem isSign_iff {c : Char} : isSign c = true ↔ c = '+' ∨ c = '-' := by
  simp [isSign]

theorem isSign_eq_false_of_isDigit {c : Char} (h : c.isDigit = true) : isSign c = false := by
  by_contra hsign
  rcases isSign_iff.mp (by simpa using hsign) with rfl | rfl <;> cases h

namespace Numeral

/-- A sign or none, digits, a point or none and digits behind the point; some digit at all. -/
structure IsWritten (n : Numeral) : Prop where
  sign : n.sign = [] ∨ n.sign = ['+'] ∨ n.sign = ['-']
  whole : ∀ c ∈ n.whole, c.isDigit = true
  point : n.point = [] ∧ n.fraction = [] ∨ n.point = ['.']
  fraction : ∀ c ∈ n.fraction, c.isDigit = true
  filled : ¬ (n.whole = [] ∧ n.fraction = [])

instance (n : Numeral) : Decidable n.IsWritten :=
  decidable_of_iff
    ((n.sign = [] ∨ n.sign = ['+'] ∨ n.sign = ['-']) ∧ n.whole.all Char.isDigit = true ∧
      (n.point = [] ∧ n.fraction = [] ∨ n.point = ['.']) ∧
        n.fraction.all Char.isDigit = true ∧ ¬ (n.whole = [] ∧ n.fraction = []))
    ⟨fun ⟨hsign, hwhole, hpoint, hfraction, hfilled⟩ =>
        ⟨hsign, List.all_eq_true.mp hwhole, hpoint, List.all_eq_true.mp hfraction, hfilled⟩,
      fun h => ⟨h.sign, List.all_eq_true.mpr h.whole, h.point, List.all_eq_true.mpr h.fraction,
        h.filled⟩⟩

/-- The text behind a numeral that does not go on into it. -/
structure EndsBefore (n : Numeral) (rest : Text) : Prop where
  digit : StartsOff Char.isDigit rest
  point : n.point = [] → StartsOff (· == '.') rest

/-- The characters of numerals. -/
def isCharacter (c : Char) : Bool :=
  c.isDigit || c == '+' || c == '-' || c == '.'

theorem IsWritten.isCharacter {n : Numeral} (h : n.IsWritten) :
    ∀ c ∈ n.print, Numeral.isCharacter c = true := by
  intro c hc
  simp only [print, List.mem_append] at hc
  rcases hc with ((hc | hc) | hc) | hc
  · rcases h.sign with hsign | hsign | hsign <;> rw [hsign] at hc
    · cases hc
    · simp [Numeral.isCharacter, List.mem_singleton.mp hc]
    · simp [Numeral.isCharacter, List.mem_singleton.mp hc]
  · simp [Numeral.isCharacter, h.whole c hc]
  · rcases h.point with ⟨hpoint, -⟩ | hpoint <;> rw [hpoint] at hc
    · cases hc
    · simp [Numeral.isCharacter, List.mem_singleton.mp hc]
  · simp [Numeral.isCharacter, h.fraction c hc]

theorem IsWritten.exists_isDigit {n : Numeral} (h : n.IsWritten) :
    ∃ c ∈ n.print, c.isDigit = true := by
  by_cases hwhole : n.whole = []
  · have hfraction : n.fraction ≠ [] := fun hempty => h.filled ⟨hwhole, hempty⟩
    obtain ⟨c, hc⟩ := List.exists_mem_of_ne_nil _ hfraction
    exact ⟨c, by simp [print, hc], h.fraction c hc⟩
  · obtain ⟨c, hc⟩ := List.exists_mem_of_ne_nil _ hwhole
    exact ⟨c, by simp [print, hc], h.whole c hc⟩

theorem IsWritten.print_ne_nil {n : Numeral} (h : n.IsWritten) : n.print ≠ [] := by
  obtain ⟨c, hc, -⟩ := h.exists_isDigit
  exact List.ne_nil_of_mem hc

/-! ### Signs -/

theorem splitSign_append_of_sign {sign t : Text}
    (hsign : sign = [] ∨ sign = ['+'] ∨ sign = ['-'])
    (ht : StartsOff isSign t) : splitSign (sign ++ t) = (sign, t) := by
  rcases hsign with rfl | rfl | rfl
  · rcases t with _ | ⟨c, t⟩
    · rfl
    · have hc := Text.startsOff_cons.mp ht
      simp only [isSign, Bool.or_eq_false_iff, beq_eq_false_iff_ne] at hc
      simp [splitSign, hc]
  · rfl
  · rfl

theorem splitSign_sign (t : Text) :
    (splitSign t).1 = [] ∨ (splitSign t).1 = ['+'] ∨ (splitSign t).1 = ['-'] := by
  unfold splitSign
  split <;> simp

theorem splitSign_of_startsOff {t : Text} (h : StartsOff isSign t) : splitSign t = ([], t) :=
  splitSign_append_of_sign (Or.inl rfl) h

theorem splitSign_cons {c : Char} (h : isSign c = true) (t : Text) :
    splitSign (c :: t) = ([c], t) := by
  rcases isSign_iff.mp h with rfl | rfl <;> rfl

theorem splitSign_append_of_ne_nil {t : Text} (ht : t ≠ []) (b : Text) :
    (splitSign (t ++ b)).1 = (splitSign t).1 ∧ (splitSign (t ++ b)).2 = (splitSign t).2 ++ b := by
  rcases t with _ | ⟨c, t⟩
  · exact absurd rfl ht
  · rw [List.cons_append]
    unfold splitSign
    split <;> simp_all

/-! ### Reading -/

theorem splitFraction_append_of_point {n : Numeral} {rest : Text} (h : n.IsWritten)
    (hrest : n.EndsBefore rest) :
    splitFraction (n.point ++ (n.fraction ++ rest)) = (n.point, n.fraction, rest) := by
  rcases h.point with ⟨hpoint, hfraction⟩ | hpoint
  · rw [hpoint, hfraction]
    rcases rest with _ | ⟨c, rest⟩
    · rfl
    · have hc : c ≠ '.' := by simpa using hrest.point hpoint
      simp [splitFraction, hc]
  · obtain ⟨htake, hdrop⟩ := Text.takeWhile_append_of_startsOff h.fraction hrest.digit
    simp [hpoint, splitFraction, htake, hdrop]

/-- Behind its sign a numeral starts with a digit or a point. -/
theorem IsWritten.startsOff_isSign {n : Numeral} (h : n.IsWritten) (rest : Text) :
    StartsOff isSign (n.whole ++ (n.point ++ (n.fraction ++ rest))) := by
  rcases hwhole : n.whole with _ | ⟨c, whole⟩
  · rcases h.point with ⟨-, hfraction⟩ | hpoint
    · exact absurd ⟨hwhole, hfraction⟩ h.filled
    · rw [hpoint]
      exact Text.startsOff_cons.mpr (by decide)
  · have hc : c.isDigit = true := h.whole c (by simp [hwhole])
    exact Text.startsOff_cons.mpr (isSign_eq_false_of_isDigit hc)

/-- **Numerals are found again** in front of what does not go on into them. -/
theorem read?_print_append {n : Numeral} {rest : Text} (h : n.IsWritten)
    (hrest : n.EndsBefore rest) : read? (n.print ++ rest) = some (n, rest) := by
  have hbehind : StartsOff Char.isDigit (n.point ++ (n.fraction ++ rest)) := by
    rcases h.point with ⟨hpoint, hfraction⟩ | hpoint
    · rw [hpoint, hfraction]
      exact hrest.digit
    · rw [hpoint]
      exact Text.startsOff_cons.mpr (by decide)
  have hunsigned := h.startsOff_isSign rest
  obtain ⟨htake, hdrop⟩ := Text.takeWhile_append_of_startsOff h.whole hbehind
  have hfilled : (n.whole.isEmpty && n.fraction.isEmpty) = false := by
    simpa using h.filled
  simp only [print, List.append_assoc, read?, splitSign_append_of_sign h.sign hunsigned, htake,
    hdrop, splitFraction_append_of_point h hrest, hfilled, Bool.false_eq_true, if_false]

theorem splitFraction_cases (t : Text) :
    (∃ behind : Text, splitFraction t =
      (['.'], behind.takeWhile Char.isDigit, behind.dropWhile Char.isDigit)) ∨
    (StartsOff (· == '.') t ∧ splitFraction t = ([], [], t)) := by
  rcases t with _ | ⟨c, t⟩
  · exact Or.inr ⟨Text.startsOff_nil _, rfl⟩
  · by_cases hc : c = '.'
    · subst hc
      exact Or.inl ⟨t, rfl⟩
    · exact Or.inr ⟨Text.startsOff_cons.mpr (by simpa using hc), by simp [splitFraction, hc]⟩

theorem isWritten_of_read? {n : Numeral} {t rest : Text} (h : read? t = some (n, rest)) :
    n.IsWritten ∧ n.EndsBefore rest := by
  have hoff := Text.startsOff_dropWhile Char.isDigit (splitSign t).2
  rcases splitFraction_cases ((splitSign t).2.dropWhile Char.isDigit) with
    ⟨behind, hsplit⟩ | ⟨hpoint, hsplit⟩
  · simp only [read?, hsplit] at h
    split at h
    · cases h
    · rename_i hfilled
      cases h
      exact ⟨⟨splitSign_sign t, fun _ hc => Text.mem_takeWhile hc, Or.inr rfl,
        fun _ hc => Text.mem_takeWhile hc, by simpa using hfilled⟩,
        Text.startsOff_dropWhile _ _, by simp⟩
  · simp only [read?, hsplit] at h
    split at h
    · cases h
    · rename_i hfilled
      cases h
      exact ⟨⟨splitSign_sign t, fun _ hc => Text.mem_takeWhile hc, Or.inl ⟨rfl, rfl⟩, by simp,
        by simpa using hfilled⟩, hoff, fun _ => hpoint⟩

/-- **A text starts with exactly the numerals that end there.** -/
theorem read?_eq_some_iff {n : Numeral} {t rest : Text} :
    read? t = some (n, rest) ↔ n.print ++ rest = t ∧ n.IsWritten ∧ n.EndsBefore rest := by
  constructor
  · intro h
    exact ⟨print_append_of_read? h, isWritten_of_read? h⟩
  · rintro ⟨rfl, hwritten, hrest⟩
    exact read?_print_append hwritten hrest

end Numeral

end EmScale
