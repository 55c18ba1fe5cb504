/-
  EmScale/Proofs/Sheet/Lexis.lean
  ===============================
  **Where statements end, and which texts can stand for one another.**

  The first half says what `Lexis.split` cuts: the part in front is run through, and what
  follows starts with a character that stops the state behind that part.  Both facts
  together determine the cut (`split_append_of_stops`).

  The second half is about characters that mean nothing to the scan of statements: letters,
  digits, signs, blanks.  Two texts of such characters, neither of them empty, take every
  state to the same state (`Alike.of_isInert`), so one may take the place of the other
  anywhere in a statement: behind a backslash, in a comment, in a string.
-/
import EmScale.Proofs.Text
import EmScale.Sheet.Lexis

namespace EmScale.Lexis

/-! ### Cutting -/

@[simp] theorem runsThrough_nil (s : Lexis) : s.runsThrough [] = true := rfl

theorem runsThrough_cons (s : Lexis) (c : Char) (t : Text) :
    s.runsThrough (c :: t) = (!s.stops c && (s.step c).runsThrough t) := by
  by_cases hc : s.stops c = true
  · simp [runsThrough, split, hc]
  · simp [runsThrough, split, hc]

theorem runsThrough_append (s : Lexis) (a b : Text) :
    s.runsThrough (a ++ b) = (s.runsThrough a && (s.run a).runsThrough b) := by
  induction a generalizing s with
  | nil => simp
  | cons c a ih => simp only [List.cons_append, runsThrough_cons, run_cons, ih, Bool.and_assoc]

theorem runsThrough_split (s : Lexis) (t : Text) : s.runsThrough (s.split t).1 = true := by
  induction t generalizing s with
  | nil => rfl
  | cons c t ih =>
    by_cases hc : s.stops c = true
    · simp [split, hc]
    · simp [split, hc, runsThrough_cons, ih]

theorem stops_of_split {s : Lexis} {t rest : Text} {c : Char} (h : (s.split t).2 = c :: rest) :
    (s.run (s.split t).1).stops c = true := by
  induction t generalizing s with
  | nil => cases h
  | cons d t ih =>
    by_cases hd : s.stops d = true
    · simp only [split, hd, if_true] at h ⊢
      cases h
      exact hd
    · simp only [split, hd] at h ⊢
      exact ih h

theorem split_of_runsThrough {s : Lexis} {a : Text} (ha : s.runsThrough a = true) :
    s.split a = (a, []) := by
  have hwhole := split_append s a
  have hrest : (s.split a).2 = [] := by simpa [runsThrough] using ha
  rw [hrest, List.append_nil] at hwhole
  exact Prod.ext hwhole hrest

/-- **The cut is determined** by a part that is run through and a character that stops. -/
theorem split_append_of_stops {s : Lexis} {a rest : Text} {c : Char}
    (ha : s.runsThrough a = true) (hc : (s.run a).stops c = true) :
    s.split (a ++ c :: rest) = (a, c :: rest) := by
  induction a generalizing s with
  | nil => simp [split, show s.stops c = true from hc]
  | cons d a ih =>
    rw [runsThrough_cons, Bool.and_eq_true] at ha
    have hd : ¬ s.stops d = true := by simpa using ha.1
    simp [split, hd, ih ha.2 hc]

/-! ### Ends -/

/-- Whether a statement may end in front of the given character, or at the end of the text. -/
def EndsAt (s : Lexis) : Option Char → Prop
  | none => s.inString = false ∧ s.inComment = false
  | some c => s.stops c = true

instance (s : Lexis) (stop : Option Char) : Decidable (s.EndsAt stop) := by
  cases stop <;> unfold EndsAt <;> infer_instance

theorem EndsAt.not_inString {s : Lexis} {stop : Option Char} (h : s.EndsAt stop) :
    s.inString = false := by
  cases stop with
  | none => exact h.1
  | some c =>
    rcases s with ⟨mode, depth⟩
    cases mode <;> simp_all [EndsAt, stops, isOutside, inString]

theorem EndsAt.not_inComment {s : Lexis} {stop : Option Char} (h : s.EndsAt stop) :
    s.inComment = false := by
  cases stop with
  | none => exact h.2
  | some c =>
    rcases s with ⟨mode, depth⟩
    cases mode <;> simp_all [EndsAt, stops, isOutside, inComment]

theorem eq_of_stops {s : Lexis} {c : Char} (h : s.stops c = true) :
    c = '{' ∨ c = ';' ∨ c = '}' := by
  simp only [stops, Bool.and_eq_true, Bool.or_eq_true, beq_iff_eq, or_assoc] at h
  exact h.2

/-! ### States that are reached -/

/-- Strings are opened by one of the two quotes. -/
def IsProper (s : Lexis) : Prop :=
  match s.mode with
  | .quoted quote | .quotedEscape quote => quote = '"' ∨ quote = '\''
  | _ => True

theorem isProper_start : IsProper {} := trivial

theorem isProper_stepPlain (depth : Nat) (c : Char) : (stepPlain depth c).IsProper := by
  unfold stepPlain
  split
  · rename_i hquote
    exact hquote
  · repeat' split
    all_goals exact trivial

theorem IsProper.step {s : Lexis} (hs : s.IsProper) (c : Char) : (s.step c).IsProper := by
  rcases s with ⟨mode, depth⟩
  cases mode with
  | plain => exact isProper_stepPlain depth c
  | slash =>
    unfold Lexis.step
    dsimp only
    split
    · exact trivial
    · exact isProper_stepPlain depth c
  | escape => exact trivial
  | quoted quote =>
    unfold Lexis.step
    dsimp only
    split
    · exact hs
    · split
      · exact trivial
      · exact hs
  | quotedEscape quote => exact hs
  | comment =>
    unfold Lexis.step
    dsimp only
    split <;> exact trivial
  | commentStar =>
    unfold Lexis.step
    dsimp only
    repeat' split
    all_goals exact trivial

theorem IsProper.run {s : Lexis} (hs : s.IsProper) (t : Text) : (s.run t).IsProper := by
  induction t generalizing s with
  | nil => exact hs
  | cons c t ih => exact ih (hs.step c)

/-! ### Characters without a meaning -/

/-- The characters that open, close, escape or end something in a statement. -/
def meaningful : List Char :=
  ['"', '\'', '/', '\\', '(', ')', '*', '{', '}', ';']

/-- Whether a character means nothing to the scan of statements. -/
def isInert (c : Char) : Bool :=
  !meaningful.contains c

theorem isInert_of_false {p : Char → Bool} (hp : meaningful.any p = false) {c : Char}
    (hc : p c = true) : isInert c = true := by
  by_cases h : c ∈ meaningful
  · exact absurd hc (List.any_eq_false.mp hp c h)
  · simpa [isInert] using h

/-- What a character without a meaning leaves of a mode: an escape is used up, and neither
    a slash nor a star is any longer in front. -/
def settle : Mode → Mode
  | .plain | .slash | .escape => .plain
  | .quoted quote | .quotedEscape quote => .quoted quote
  | .comment | .commentStar => .comment

theorem settle_settle (m : Mode) : settle (settle m) = settle m := by
  cases m <;> rfl

theorem step_of_isInert {s : Lexis} (hs : s.IsProper) {c : Char} (hc : isInert c = true) :
    s.step c = ⟨settle s.mode, s.depth⟩ := by
  simp only [isInert, meaningful, List.contains_eq_mem, List.mem_cons, List.not_mem_nil, or_false,
    Bool.not_eq_true', decide_eq_false_iff_not, not_or] at hc
  rcases s with ⟨mode, depth⟩
  cases mode with
  | quoted quote =>
    have hquote : c ≠ quote := by
      rcases hs with rfl | rfl
      · exact hc.1
      · exact hc.2.1
    simp [Lexis.step, settle, hc, hquote]
  | _ => simp [Lexis.step, stepPlain, settle, hc]

theorem not_stops_of_isInert {s : Lexis} {c : Char} (hc : isInert c = true) :
    s.stops c = false := by
  by_contra h
  have hstop : s.stops c = true := by simpa using h
  rcases eq_of_stops hstop with rfl | rfl | rfl <;> simp [isInert, meaningful] at hc

theorem run_of_isInert {s : Lexis} (hs : s.IsProper) {t : Text} (hne : t ≠ [])
    (ht : ∀ c ∈ t, isInert c = true) : s.run t = ⟨settle s.mode, s.depth⟩ := by
  induction t generalizing s with
  | nil => exact absurd rfl hne
  | cons c t ih =>
    have hc := step_of_isInert hs (ht c (by simp))
    rw [run_cons]
    cases t with
    | nil => exact hc
    | cons d t =>
      rw [ih (hs.step c) (by simp) (fun x hx => ht x (by simp [hx])), hc]
      simp [settle_settle]

theorem runsThrough_of_isInert {s : Lexis} {t : Text} (ht : ∀ c ∈ t, isInert c = true) :
    s.runsThrough t = true := by
  induction t generalizing s with
  | nil => rfl
  | cons c t ih =>
    rw [runsThrough_cons, not_stops_of_isInert (ht c (by simp)),
      ih (fun x hx => ht x (by simp [hx]))]
    rfl

/-- At the start nothing is open, and characters without a meaning open nothing. -/
theorem run_start_of_isInert {t : Text} (ht : ∀ c ∈ t, isInert c = true) : run {} t = {} := by
  cases t with
  | nil => rfl
  | cons c t => exact run_of_isInert isProper_start (by simp) ht

theorem isInert_of_isBlank {t : Text} (h : t.IsBlank) : ∀ c ∈ t, isInert c = true := by
  intro c hc
  exact isInert_of_false (by decide) (h c hc)

theorem inString_run_of_isBlank {s : Lexis} (hs : s.IsProper) {t : Text} (ht : t.IsBlank) :
    (s.run t).inString = s.inString ∧ (s.run t).inComment = s.inComment := by
  by_cases hne : t = []
  · rw [hne]
    exact ⟨rfl, rfl⟩
  · rw [run_of_isInert hs hne (isInert_of_isBlank ht)]
    rcases s with ⟨mode, depth⟩
    cases mode <;> exact ⟨rfl, rfl⟩

theorem depth_run_of_isBlank {s : Lexis} (hs : s.IsProper) {t : Text} (ht : t.IsBlank) :
    (s.run t).depth = s.depth := by
  by_cases hne : t = []
  · rw [hne]
    rfl
  · rw [run_of_isInert hs hne (isInert_of_isBlank ht)]

/-! ### More parentheses -/

/-- The same mode, and at least as many open parentheses. -/
def Below (s s' : Lexis) : Prop :=
  s.mode = s'.mode ∧ s.depth ≤ s'.depth

theorem Below.stepPlain {k k' : Nat} (h : k ≤ k') (c : Char) :
    (stepPlain k c).Below (stepPlain k' c) := by
  unfold Lexis.stepPlain
  repeat' split
  all_goals exact ⟨rfl, by simp only; omega⟩

theorem Below.step {s s' : Lexis} (h : s.Below s') (c : Char) : (s.step c).Below (s'.step c) := by
  rcases s with ⟨mode, k⟩
  rcases s' with ⟨mode', k'⟩
  obtain ⟨hmode, hdepth⟩ := h
  dsimp only at hmode hdepth
  subst hmode
  cases mode with
  | plain => exact Below.stepPlain hdepth c
  | slash =>
    unfold Lexis.step
    dsimp only
    split
    · exact ⟨rfl, hdepth⟩
    · exact Below.stepPlain hdepth c
  | _ =>
    unfold Lexis.step
    dsimp only
    repeat' split
    all_goals exact ⟨rfl, hdepth⟩

theorem Below.run {s s' : Lexis} (h : s.Below s') (t : Text) : (s.run t).Below (s'.run t) := by
  induction t generalizing s s' with
  | nil => exact h
  | cons c t ih => exact ih (h.step c)

theorem Below.stops {s s' : Lexis} (h : s.Below s') {c : Char} (hc : s'.stops c = true) :
    s.stops c = true := by
  simp only [Lexis.stops, isOutside, Bool.and_eq_true, beq_iff_eq] at hc ⊢
  obtain ⟨⟨hmode, hdepth⟩, hend⟩ := hc
  rw [h.1]
  exact ⟨⟨hmode, Nat.le_zero.mp (hdepth ▸ h.2)⟩, hend⟩

theorem Below.endsAt_none {s s' : Lexis} (h : s.Below s') (hs : s.EndsAt none) :
    s'.EndsAt none := by
  unfold EndsAt inString inComment at *
  rwa [h.1] at hs

theorem depth_eq_zero_of_stops {s : Lexis} {c : Char} (h : s.stops c = true) : s.depth = 0 := by
  simp only [stops, Bool.and_eq_true, beq_iff_eq] at h
  exact h.1.2

/-- **Open parentheses let a statement go on.** -/
theorem Below.runsThrough {s s' : Lexis} (h : s.Below s') {t : Text}
    (ht : s.runsThrough t = true) : s'.runsThrough t = true := by
  induction t generalizing s s' with
  | nil => rfl
  | cons c t ih =>
    rw [runsThrough_cons, Bool.and_eq_true] at ht ⊢
    refine ⟨?_, ih (h.step c) ht.2⟩
    have hc : s.stops c ≠ true := by simpa using ht.1
    have hc' : s'.stops c ≠ true := fun hc' => hc (h.stops hc')
    simpa using hc'

/-! ### Texts that can stand for one another -/

/-- Two texts that every state runs through alike, and to the same state. -/
def Alike (a b : Text) : Prop :=
  ∀ s : Lexis, s.IsProper → s.run a = s.run b ∧ s.runsThrough a = s.runsThrough b

theorem Alike.refl (a : Text) : Alike a a :=
  fun _ _ => ⟨rfl, rfl⟩

theorem Alike.append {a a' b b' : Text} (ha : Alike a a') (hb : Alike b b') :
    Alike (a ++ b) (a' ++ b') := by
  intro s hs
  obtain ⟨hrun, hthrough⟩ := ha s hs
  obtain ⟨hrun', hthrough'⟩ := hb (s.run a) (hs.run a)
  constructor
  · rw [run_append, run_append, ← hrun, hrun']
  · rw [runsThrough_append, runsThrough_append, hthrough, ← hrun, hthrough']

/-- **Texts without a meaning are alike** unless one of them is empty. -/
theorem Alike.of_isInert {a b : Text} (ha : a ≠ []) (hb : b ≠ [])
    (hia : ∀ c ∈ a, isInert c = true) (hib : ∀ c ∈ b, isInert c = true) : Alike a b := by
  intro s hs
  constructor
  · rw [run_of_isInert hs ha hia, run_of_isInert hs hb hib]
  · rw [runsThrough_of_isInert hia, runsThrough_of_isInert hib]

end EmScale.Lexis
