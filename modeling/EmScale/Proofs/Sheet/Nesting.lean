/-
  EmScale/Proofs/Sheet/Nesting.lean
  =================================
  **Blocks, strings and comments that a text leaves open.**

  A brace opens or closes a block where it ends a statement.  `Lexis.openBlocks` counts the
  open blocks behind a text from this alone, so that the brace that is still open at the end
  of a text can be told without reading its nodes.  The count behind a concatenation comes
  from the counts behind its parts.

  A string or a comment is left open where every way to go on from its start stays inside it
  (`Lexis.LeavesOpen`).  The start that the reader of statements finds is such a one
  (`leavesOpen_of_inString`, `leavesOpen_of_inComment`).
-/
import EmScale.Proofs.Sheet.Lexis

namespace EmScale.Lexis

/-! ### Open blocks -/

/-- The number of open blocks behind a character, if `n` are open in front of it; nothing if the
    character closes a block and none is open. -/
def openBlocksStep (s : Lexis) (n : Nat) (c : Char) : Option Nat :=
  if s.stops c = false then some n
  else if c = '{' then some (n + 1)
  else if c = '}' then n.ppred
  else some n

/-- The number of open blocks behind a text, if `n` are open in front of it; nothing if a brace
    of the text closes a block where none is open. -/
def openBlocks (s : Lexis) (n : Nat) : Text → Option Nat
  | [] => some n
  | c :: t => (s.openBlocksStep n c).bind fun m => (s.step c).openBlocks m t

@[simp] theorem openBlocks_nil (s : Lexis) (n : Nat) : s.openBlocks n [] = some n := rfl

theorem openBlocks_append (s : Lexis) (n : Nat) (a b : Text) :
    s.openBlocks n (a ++ b) = (s.openBlocks n a).bind fun m => (s.run a).openBlocks m b := by
  induction a generalizing s n with
  | nil => rfl
  | cons c a ih => simp only [List.cons_append, openBlocks, ih, run_cons, Option.bind_assoc]

theorem openBlocks_append_of_eq {s : Lexis} {n m : Nat} {a : Text}
    (h : s.openBlocks n a = some m) (b : Text) :
    s.openBlocks n (a ++ b) = (s.run a).openBlocks m b := by
  rw [openBlocks_append, h, Option.bind_some]

theorem openBlocks_open {s : Lexis} (h : s.stops '{' = true) (n : Nat) (t : Text) :
    s.openBlocks n ('{' :: t) = (s.step '{').openBlocks (n + 1) t := by
  simp [openBlocks, openBlocksStep, h]

theorem openBlocks_close {s : Lexis} (h : s.stops '}' = true) (n : Nat) (t : Text) :
    s.openBlocks (n + 1) ('}' :: t) = (s.step '}').openBlocks n t := by
  simp [openBlocks, openBlocksStep, h]

/-- A text that ends no statement opens and closes no block. -/
theorem openBlocks_of_runsThrough {s : Lexis} {t : Text} (h : s.runsThrough t = true) (n : Nat) :
    s.openBlocks n t = some n := by
  induction t generalizing s with
  | nil => rfl
  | cons c t ih =>
    rw [runsThrough_cons, Bool.and_eq_true, Bool.not_eq_true'] at h
    rw [openBlocks, openBlocksStep, if_pos h.1, Option.bind_some, ih h.2]

theorem openBlocksStep_add {s : Lexis} {n m : Nat} {c : Char}
    (h : s.openBlocksStep n c = some m) (k : Nat) : s.openBlocksStep (n + k) c = some (m + k) := by
  unfold openBlocksStep at h ⊢
  split_ifs at h ⊢
  · cases h
    rfl
  · cases h
    rw [Nat.add_right_comm]
  · rw [Nat.ppred_eq_some] at h ⊢
    omega
  · cases h
    rfl

/-- Blocks that are open around a text stay open. -/
theorem openBlocks_add {s : Lexis} {n m : Nat} {t : Text} (h : s.openBlocks n t = some m)
    (k : Nat) : s.openBlocks (n + k) t = some (m + k) := by
  induction t generalizing s n with
  | nil =>
    cases h
    rfl
  | cons c t ih =>
    obtain ⟨next, hstep, hrest⟩ := Option.bind_eq_some_iff.mp h
    rw [openBlocks, openBlocksStep_add hstep k, Option.bind_some]
    exact ih hrest

/-- Behind a character that ends a statement nothing is open. -/
theorem step_of_stops {s : Lexis} {c : Char} (h : s.stops c = true) : s.step c = {} := by
  have hdepth := depth_eq_zero_of_stops h
  have hchar := eq_of_stops h
  rcases s with ⟨mode, depth⟩
  dsimp only at hdepth
  subst hdepth
  cases mode <;> simp [stops, isOutside] at h <;> rcases hchar with rfl | rfl | rfl <;> rfl

/-- A block: an opening brace, what is in it, and its closing brace. -/
theorem openBlocks_block {s : Lexis} {inside : Text} (hopen : s.stops '{' = true)
    (hinside : openBlocks {} 0 inside = some 0) (hclose : (run {} inside).stops '}' = true) :
    s.openBlocks 0 ('{' :: (inside ++ ['}'])) = some 0 := by
  have hdeeper : openBlocks {} 1 inside = some 1 := openBlocks_add hinside 1
  rw [openBlocks_open hopen, step_of_stops hopen, openBlocks_append_of_eq hdeeper,
    openBlocks_close hclose, openBlocks_nil]

/-! ### Texts that leave nothing open -/

/-- A text that is read over with nothing open in front of it, and leaves nothing open. -/
structure IsNeutral (t : Text) : Prop where
  run : Lexis.run {} t = {}
  blocks : openBlocks {} 0 t = some 0

theorem IsNeutral.run_append {a : Text} (ha : IsNeutral a) (b : Text) :
    Lexis.run {} (a ++ b) = Lexis.run {} b := by
  rw [Lexis.run_append, ha.run]

theorem IsNeutral.openBlocks_append {a : Text} (ha : IsNeutral a) (b : Text) :
    openBlocks {} 0 (a ++ b) = openBlocks {} 0 b := by
  rw [openBlocks_append_of_eq ha.blocks, ha.run]

theorem IsNeutral.append {a b : Text} (ha : IsNeutral a) (hb : IsNeutral b) :
    IsNeutral (a ++ b) :=
  ⟨(ha.run_append b).trans hb.run, (ha.openBlocks_append b).trans hb.blocks⟩

theorem isNeutral_nil : IsNeutral [] :=
  ⟨rfl, rfl⟩

theorem isNeutral_of_isInert {t : Text} (ht : ∀ c ∈ t, isInert c = true) : IsNeutral t :=
  ⟨run_start_of_isInert ht, openBlocks_of_runsThrough (runsThrough_of_isInert ht) 0⟩

/-- A semicolon that ends a statement closes what the statement has opened. -/
theorem isNeutral_semicolon {t : Text} (hthrough : runsThrough {} t = true)
    (hstops : (run {} t).stops ';' = true) : IsNeutral (t ++ [';']) := by
  constructor
  · rw [run_append]
    exact step_of_stops hstops
  · rw [openBlocks_append_of_eq (openBlocks_of_runsThrough hthrough 0)]
    simp [openBlocks, openBlocksStep, hstops]

/-! ### Comments -/

theorem not_isOutside_of_inString {s : Lexis} (h : s.inString = true) : s.isOutside = false := by
  rcases s with ⟨mode, depth⟩
  cases mode <;> simp_all [isOutside, inString]

theorem not_isOutside_of_inComment {s : Lexis} (h : s.inComment = true) :
    s.isOutside = false := by
  rcases s with ⟨mode, depth⟩
  cases mode <;> simp_all [isOutside, inComment]

theorem not_stops_of_inComment {s : Lexis} (h : s.inComment = true) (c : Char) :
    s.stops c = false := by
  simp [stops, not_isOutside_of_inComment h]

/-- A comment goes on as long as its end does not show. -/
theorem run_of_inComment {s : Lexis} {t : Text}
    (h : (s.mode = .comment ∧ ¬ ['*', '/'] <:+: t) ∨
      (s.mode = .commentStar ∧ ¬ ['*', '/'] <:+: '*' :: t)) :
    (s.run t).inComment = true ∧ (s.run t).depth = s.depth ∧ s.runsThrough t = true := by
  induction t generalizing s with
  | nil =>
    have hcomment : s.inComment = true := by
      rcases h with ⟨hmode, -⟩ | ⟨hmode, -⟩ <;> simp [inComment, hmode]
    exact ⟨hcomment, rfl, rfl⟩
  | cons c t ih =>
    have hcomment : s.inComment = true := by
      rcases h with ⟨hmode, -⟩ | ⟨hmode, -⟩ <;> simp [inComment, hmode]
    have hnext : (s.step c).depth = s.depth ∧
        (((s.step c).mode = .comment ∧ ¬ ['*', '/'] <:+: t) ∨
          ((s.step c).mode = .commentStar ∧ ¬ ['*', '/'] <:+: '*' :: t)) := by
      rcases s with ⟨mode, depth⟩
      rcases h with ⟨rfl, hfree⟩ | ⟨rfl, hfree⟩
      · by_cases hstar : c = '*'
        · subst hstar
          exact ⟨rfl, Or.inr ⟨rfl, hfree⟩⟩
        · have hrest : ¬ ['*', '/'] <:+: t :=
            fun h => hfree (h.trans (List.suffix_cons c t).isInfix)
          simp [step, hstar, hrest]
      · have hlater : ¬ ['*', '/'] <:+: c :: t :=
          fun h => hfree (h.trans (List.suffix_cons '*' (c :: t)).isInfix)
        have hslash : c ≠ '/' := by
          rintro rfl
          exact hfree ⟨[], t, rfl⟩
        by_cases hstar : c = '*'
        · subst hstar
          exact ⟨rfl, Or.inr ⟨rfl, hlater⟩⟩
        · have hrest : ¬ ['*', '/'] <:+: t :=
            fun h => hlater (h.trans (List.suffix_cons c t).isInfix)
          simp [step, hstar, hslash, hrest]
    obtain ⟨hin, hdepth, hthrough⟩ := ih hnext.2
    refine ⟨hin, hdepth.trans hnext.1, ?_⟩
    rw [runsThrough_cons, not_stops_of_inComment hcomment, hthrough]
    rfl

/-- A comment, with its delimiters. -/
theorem isNeutral_comment {text : Text} (hfree : ¬ ['*', '/'] <:+: text) :
    IsNeutral ('/' :: '*' :: (text ++ ['*', '/'])) := by
  have hopened : (Lexis.run {} ['/', '*']).mode = .comment := rfl
  obtain ⟨hin, hdepth, hthrough⟩ := run_of_inComment (Or.inl ⟨hopened, hfree⟩)
  generalize hinside : (Lexis.run {} ['/', '*']).run text = inside at hin hdepth
  have hwhole : '/' :: '*' :: (text ++ ['*', '/']) = ['/', '*'] ++ (text ++ ['*', '/']) := rfl
  rcases inside with ⟨mode, depth⟩
  rw [hwhole]
  constructor
  · rw [Lexis.run_append, Lexis.run_append, hinside]
    cases hdepth
    cases mode <;> simp [inComment] at hin <;> rfl
  · apply openBlocks_of_runsThrough
    rw [runsThrough_append, runsThrough_append, hinside, hthrough]
    cases mode <;> simp [inComment] at hin <;> rfl

/-! ### Strings and comments that are left open -/

/-- Behind `front` stands the start `mark` of a string or a comment that goes on to the end of
    `body`: however much of `body` is read, the text is inside it. -/
def LeavesOpen (inside : Lexis → Bool) (front mark body : Text) : Prop :=
  (run {} front).isOutside = true ∧ ∀ t, t <+: body → inside (run {} (front ++ (mark ++ t))) = true

section LeavesOpen

variable {inside : Lexis → Bool} {front mark body : Text}

theorem LeavesOpen.append_singleton (h : LeavesOpen inside front mark body) {c : Char}
    (hend : inside (run {} (front ++ (mark ++ (body ++ [c])))) = true) :
    LeavesOpen inside front mark (body ++ [c]) := by
  refine ⟨h.1, ?_⟩
  intro t ht
  rcases List.prefix_concat_iff.mp ht with rfl | ht
  · exact hend
  · exact h.2 t ht

/-- What stands in front of a text that starts with nothing open does not matter. -/
theorem LeavesOpen.append_left (h : LeavesOpen inside front mark body) {start : Text}
    (hstart : run {} start = {}) : LeavesOpen inside (start ++ front) mark body := by
  unfold LeavesOpen
  simp only [List.append_assoc, run_append {} start, hstart]
  exact h

/-- A comment whose end does not show is left open. -/
theorem leavesOpen_comment (hfront : run {} front = {}) (hfree : ¬ ['*', '/'] <:+: body) :
    LeavesOpen inComment front ['/', '*'] body := by
  constructor
  · rw [hfront]
    rfl
  · intro t ht
    have hshorter : ¬ ['*', '/'] <:+: t := fun h => hfree (h.trans ht.isInfix)
    rw [run_append, hfront, run_append]
    exact (run_of_inComment (Or.inl ⟨rfl, hshorter⟩)).1

end LeavesOpen

/-! ### Finding the start -/

/-- The last place outside, one character further on. -/
theorem lastOutside_append_singleton (s : Lexis) (since t : Text) (c : Char) :
    s.lastOutside (since ++ [c]) (t ++ [c]) =
      if (s.run t).isOutside = true ∧ ((s.run t).step c).mode ≠ .comment then [c]
      else s.lastOutside since t ++ [c] := by
  induction t generalizing s since with
  | nil =>
    by_cases h : s.isOutside = true ∧ (s.step c).mode ≠ .comment <;> simp [lastOutside, h]
  | cons d t ih =>
    rw [List.cons_append, lastOutside, run_cons, lastOutside, ← ih]
    congr 1
    split_ifs <;> rfl

theorem isOutside_of_step_inString {s : Lexis} {c : Char} (h : (s.step c).inString = true)
    (hs : s.inString = false) : s.isOutside = true ∧ (c = '"' ∨ c = '\'') := by
  unfold step stepPlain at h
  unfold inString isOutside at *
  grind

theorem mode_of_step_inComment {s : Lexis} {c : Char} (h : (s.step c).inComment = true)
    (hs : s.inComment = false) : s.mode = .slash ∧ c = '*' := by
  unfold step stepPlain at h
  unfold inComment at *
  grind

theorem isOutside_of_step_slash {s : Lexis} {c : Char} (h : (s.step c).mode = .slash) :
    s.isOutside = true ∧ c = '/' := by
  unfold step stepPlain at h
  unfold isOutside
  grind

theorem mode_step_star {s : Lexis} (h : s.mode = .slash) : (s.step '*').mode = .comment := by
  rcases s with ⟨mode, depth⟩
  cases h
  rfl

/-- A slash that a star would turn into the start of a comment stands outside. -/
theorem lastOutside_of_slash {t : Text} (h : (run {} t).mode = .slash) :
    ∃ front, t = front ++ ['/'] ∧ (run {} front).isOutside = true ∧
      lastOutside {} t t = ['/'] := by
  rcases List.eq_nil_or_concat' t with rfl | ⟨front, c, rfl⟩
  · cases h
  · have hmode : ((run {} front).step c).mode = .slash := by simpa using h
    obtain ⟨houtside, rfl⟩ := isOutside_of_step_slash hmode
    refine ⟨front, rfl, houtside, ?_⟩
    rw [lastOutside_append_singleton, if_pos ⟨houtside, by simp [hmode]⟩]

/-- **A string that is open at the end** was opened at the last place outside. -/
theorem leavesOpen_of_inString {t : Text} (h : (run {} t).inString = true) :
    ∃ front quote body, t = front ++ quote :: body ∧ (quote = '"' ∨ quote = '\'') ∧
      lastOutside {} t t = quote :: body ∧ LeavesOpen inString front [quote] body := by
  induction t using List.reverseRecOn with
  | nil => cases h
  | append_singleton t c ih =>
    have hstep : ((run {} t).step c).inString = true := by simpa using h
    rw [lastOutside_append_singleton]
    by_cases hin : (run {} t).inString = true
    · obtain ⟨front, quote, body, rfl, hquote, hlast, hopen⟩ := ih hin
      have houtside := not_isOutside_of_inString hin
      refine ⟨front, quote, body ++ [c], by simp, hquote, ?_, hopen.append_singleton ?_⟩
      · rw [if_neg (by simp only [houtside, Bool.false_eq_true, false_and, not_false_eq_true]),
          hlast, List.cons_append]
      · simpa using h
    · obtain ⟨houtside, hquote⟩ := isOutside_of_step_inString hstep (by simpa using hin)
      have hmode : ((run {} t).step c).mode ≠ .comment := by
        intro hmode
        simp [inString, hmode] at hstep
      refine ⟨t, c, [], rfl, hquote, by simp [houtside, hmode], houtside, ?_⟩
      intro t' ht'
      rw [List.prefix_nil.mp ht']
      simpa using h

/-- **A comment that is open at the end** was opened at the last place outside. -/
theorem leavesOpen_of_inComment {t : Text} (h : (run {} t).inComment = true) :
    ∃ front body, t = front ++ '/' :: '*' :: body ∧
      lastOutside {} t t = '/' :: '*' :: body ∧ LeavesOpen inComment front ['/', '*'] body := by
  induction t using List.reverseRecOn with
  | nil => cases h
  | append_singleton t c ih =>
    have hstep : ((run {} t).step c).inComment = true := by simpa using h
    rw [lastOutside_append_singleton]
    by_cases hin : (run {} t).inComment = true
    · obtain ⟨front, body, rfl, hlast, hopen⟩ := ih hin
      have houtside := not_isOutside_of_inComment hin
      refine ⟨front, body ++ [c], by simp, ?_, hopen.append_singleton ?_⟩
      · rw [if_neg (by simp only [houtside, Bool.false_eq_true, false_and, not_false_eq_true]),
          hlast, List.cons_append, List.cons_append]
      · simpa using h
    · obtain ⟨hslash, rfl⟩ := mode_of_step_inComment hstep (by simpa using hin)
      obtain ⟨front, rfl, houtside, hlast⟩ := lastOutside_of_slash hslash
      refine ⟨front, [], by simp, ?_, houtside, ?_⟩
      · rw [if_neg (fun h => h.2 (mode_step_star hslash)), hlast]
        rfl
      · intro t' ht'
        rw [List.prefix_nil.mp ht']
        simpa using h

end EmScale.Lexis
