/-
  EmScale/Proofs/Sheet/RunOn.lean
  ===============================
  **Declarations that no semicolon can close.**

  The last declaration of a stylesheet may leave a parenthesis open, and the last one of a
  block may end with a backslash in front of blanks.  Where another declaration is put
  behind such a one, the semicolon between them belongs to the value of the first, which
  runs on: up to a stray semicolon in front of the second declaration if a backslash is all
  that was open, and otherwise over the whole of it.  `Declaration.rejoined` is what is read
  then, and `Declaration.allFit_rejoined` states that it is read.
-/
import EmScale.Proofs.Sheet.RoundTrip

namespace EmScale

open Unicode (isWhiteSpace)
open Text (IsBlank IsTight StartsOff)

namespace Declaration

/-! ### What a declaration takes in -/

/-- Whether a semicolon behind a declaration belongs to its value. -/
def runsOn (decl : Declaration) : Bool :=
  !(Lexis.run {} (Node.declaration decl).body).stops ';'

/-- The text from the semicolon behind a declaration on, up to where the declaration ends, if
    `next` follows it; and the text behind that. -/
def intake (decl next : Declaration) : Text × Text :=
  (Lexis.run {} (Node.declaration decl).body).split
    (';' :: (next.before ++ (Node.declaration next).body))

/-- A declaration that takes in what follows it. -/
def extended (decl next : Declaration) : Declaration :=
  { decl with
    value := decl.value ++ Text.trimEnd (decl.intake next).1,
    after := Text.trailing (decl.intake next).1 }

/-- What is read where `next` follows a declaration that runs on. -/
def rejoined (decl next : Declaration) : List Node :=
  match (decl.intake next).2 with
  | [] => [.declaration (decl.extended next)]
  | _ :: rest =>
    [.declaration (decl.extended next),
      .declaration
        { next with before := rest.take (rest.length - (Node.declaration next).body.length) }]

/-- The value of a declaration that runs on goes on with a semicolon. -/
theorem exists_value_extended {decl : Declaration} (hon : decl.runsOn = true)
    (next : Declaration) :
    ∃ more, (decl.extended next).value = decl.value ++ ';' :: more := by
  have hstops : (Lexis.run {} (Node.declaration decl).body).stops ';' = false := by
    simpa [runsOn] using hon
  obtain ⟨rest, hintake⟩ : ∃ rest, (decl.intake next).1 = ';' :: rest := by
    rw [intake, Lexis.split, hstops]
    exact ⟨_, rfl⟩
  refine ⟨Text.trimEnd rest, ?_⟩
  rw [extended, hintake, Text.trimEnd_cons_of_not_blank rest (by decide)]

theorem mem_rejoined {decl next : Declaration} {node : Node} (h : node ∈ decl.rejoined next) :
    node = .declaration (decl.extended next) ∨
      ∃ before, node = .declaration { next with before } := by
  unfold rejoined at h
  split at h <;> simp only [List.mem_cons, List.not_mem_nil, or_false] at h
  · exact Or.inl h
  · exact h.imp_right fun h => ⟨_, h⟩

theorem extended_mem_rejoined (decl next : Declaration) :
    .declaration (decl.extended next) ∈ decl.rejoined next := by
  unfold rejoined
  split <;> simp

theorem exists_of_mem_rejoined {decl next : Declaration} {node : Node}
    (h : node ∈ decl.rejoined next) : ∃ inner, node = .declaration inner := by
  rcases mem_rejoined h with h | ⟨before, h⟩ <;> exact ⟨_, h⟩

theorem rejoined_ne_nil (decl next : Declaration) : decl.rejoined next ≠ [] := by
  unfold rejoined
  split <;> simp

theorem body_eq (decl : Declaration) : (Node.declaration decl).body = decl.text ++ decl.after :=
  rfl

/-! ### Where it ends -/

theorem run_of_isFiller {k : Nat} {t : Text} (ht : t.IsFiller) :
    Lexis.run ⟨.plain, k⟩ t = ⟨.plain, k⟩ := by
  induction t with
  | nil => rfl
  | cons c t ih =>
    have hstep : Lexis.step ⟨.plain, k⟩ c = ⟨.plain, k⟩ := by
      have hc := ht c (by simp)
      simp only [isFiller, Bool.or_eq_true, beq_iff_eq] at hc
      rcases hc with hc | rfl
      · have hinert : Lexis.isInert c = true := Lexis.isInert_of_false (by decide) hc
        exact Lexis.step_of_isInert (s := ⟨.plain, k⟩) trivial hinert
      · rfl
    rw [Lexis.run_cons, hstep]
    exact ih fun d hd => ht d (by simp [hd])

theorem runsThrough_of_isFiller {k : Nat} {t : Text} (ht : t.IsFiller)
    (hopen : ¬ (k = 0 ∧ ';' ∈ t)) : Lexis.runsThrough ⟨.plain, k⟩ t = true := by
  induction t with
  | nil => rfl
  | cons c t ih =>
    have htail : ∀ d ∈ t, isFiller d = true := fun d hd => ht d (by simp [hd])
    have hstops : Lexis.stops ⟨.plain, k⟩ c = false := by
      have hc := ht c (by simp)
      simp only [isFiller, Bool.or_eq_true, beq_iff_eq] at hc
      rcases hc with hc | rfl
      · exact Lexis.not_stops_of_isInert (Lexis.isInert_of_false (by decide) hc)
      · have hk : k ≠ 0 := fun hk => hopen ⟨hk, by simp⟩
        simp [Lexis.stops, hk]
    have hstep : Lexis.step ⟨.plain, k⟩ c = ⟨.plain, k⟩ :=
      run_of_isFiller (t := [c]) fun d hd => ht d (by simp_all)
    rw [Lexis.runsThrough_cons, hstops, hstep]
    exact ih htail fun h => hopen ⟨h.1, by simp [h.2]⟩

/-- A semicolon that does not close a declaration uses up an escape and nothing else. -/
theorem step_semicolon {s : Lexis} (hstring : s.inString = false) (hcomment : s.inComment = false) :
    s.step ';' = ⟨.plain, s.depth⟩ := by
  rcases s with ⟨mode, depth⟩
  cases mode with
  | plain | slash | escape => rfl
  | quoted quote | quotedEscape quote => cases hstring
  | comment | commentStar => simp [Lexis.inComment] at hcomment

section Reads

variable {decl next : Declaration} {after : Text} {stop : Option Char}
  (hd : decl.Reads after stop) (hdafter : decl.after = []) (hon : decl.runsOn = true)
  (hn : next.Reads after stop) (hnafter : next.after = [])

theorem text_of_after (hdafter : decl.after = []) : (Node.declaration decl).body = decl.text := by
  rw [body_eq, hdafter, List.append_nil]

include hdafter hon in
theorem stops_eq_false : (Lexis.run {} decl.text).stops ';' = false := by
  simpa [runsOn, text_of_after hdafter] using hon

include hd in
theorem step_run_text :
    (Lexis.run {} decl.text).step ';' = ⟨.plain, (Lexis.run {} decl.text).depth⟩ := by
  have hends := hd.statement.ends
  rw [Lexis.run_append] at hends
  obtain ⟨hstring, hcomment⟩ := Lexis.inString_run_of_isBlank
    (Lexis.isProper_start.run decl.text) hd.statement.blank
  exact step_semicolon (hstring.symm.trans hends.not_inString)
    (hcomment.symm.trans hends.not_inComment)

include hd in
theorem runsThrough_text : Lexis.runsThrough {} decl.text = true := by
  have hthrough := hd.statement.through
  rw [Lexis.runsThrough_append, Bool.and_eq_true] at hthrough
  exact hthrough.1

omit hon in
include hd hdafter in
theorem reads_semicolon (hon : decl.runsOn = false) : decl.Reads [] (some ';') := by
  have hstops : (Lexis.run {} decl.text).stops ';' = true := by
    simpa [runsOn, text_of_after hdafter] using hon
  refine ⟨hd.before, hd.opens, hd.prop, hd.tight, hd.between, hd.value, hd.statement.tight,
    Text.isBlank_nil, ?_, ?_⟩
  · rw [List.append_nil]
    exact runsThrough_text hd
  · rw [List.append_nil]
    exact hstops

include hd hdafter hon in
/-- What is taken in starts with the semicolon, behind which parentheses alone are open. -/
theorem intake_eq :
    decl.intake next =
      let rest := Lexis.split ⟨.plain, (Lexis.run {} decl.text).depth⟩
        (next.before ++ (Node.declaration next).body)
      (';' :: rest.1, rest.2) := by
  rw [intake, text_of_after hdafter, Lexis.split, step_run_text hd]
  simp [stops_eq_false hdafter hon]

theorem runsThrough_next (hn : next.Reads after stop)
    (hopen : ¬ ((Lexis.run {} decl.text).depth = 0 ∧ ';' ∈ next.before)) :
    Lexis.runsThrough ⟨.plain, (Lexis.run {} decl.text).depth⟩ (next.before ++ next.text) =
      true := by
  have hbelow : Lexis.Below {} ⟨.plain, (Lexis.run {} decl.text).depth⟩ := ⟨rfl, Nat.zero_le _⟩
  rw [Lexis.runsThrough_append, runsThrough_of_isFiller hn.before hopen,
    run_of_isFiller hn.before, hbelow.runsThrough (runsThrough_text hn)]
  rfl

include hd hdafter hon hnafter

include hn in
/-- Everything is taken in if a parenthesis is open or no stray semicolon is in front. -/
theorem intake_eq_whole (hopen : ¬ ((Lexis.run {} decl.text).depth = 0 ∧ ';' ∈ next.before)) :
    decl.intake next = (';' :: (next.before ++ next.text), []) := by
  rw [intake_eq hd hdafter hon, text_of_after hnafter]
  simp only [Lexis.split_of_runsThrough (runsThrough_next hn hopen)]

/-- What is taken in ends at a stray semicolon in front of the second declaration. -/
theorem intake_eq_cut (hdepth : (Lexis.run {} decl.text).depth = 0) {front rest : Text}
    (hfront : front.IsBlank) (hbefore : next.before = front ++ ';' :: rest) :
    decl.intake next = (';' :: front, ';' :: (rest ++ next.text)) := by
  have hthrough : Lexis.runsThrough {} front = true :=
    Lexis.runsThrough_of_isInert (Lexis.isInert_of_isBlank hfront)
  have hstops : (Lexis.run {} front).stops ';' = true := by
    rw [Lexis.run_start_of_isInert (Lexis.isInert_of_isBlank hfront)]
    rfl
  have hsplit : Lexis.split {} (front ++ ';' :: (rest ++ next.text)) =
      (front, ';' :: (rest ++ next.text)) := Lexis.split_append_of_stops hthrough hstops
  rw [intake_eq hd hdafter hon, text_of_after hnafter, hdepth, hbefore]
  simp only [List.append_assoc, List.cons_append]
  rw [hsplit]

/-! ### What is read -/

omit hdafter hon hnafter in
theorem reads_extend {more last trailing : Text} {stop' : Option Char}
    (hmore : StartsOff isWhiteSpace more)
    (hdelimits : Statement.Delimits (decl.text ++ more) trailing stop') :
    ({ decl with value := decl.value ++ more, after := last } : Declaration).Reads trailing
      stop' := by
  have htext : ({ decl with value := decl.value ++ more, after := last } : Declaration).text =
      decl.text ++ more := by
    simp [text]
  exact {
    before := hd.before
    opens := by
      rw [htext, Piece.opensStatement_append hd.colon_mem]
      exact hd.opens
    prop := hd.prop
    tight := hd.tight
    between := hd.between
    value := hd.value.append fun _ => hmore
    statement := htext ▸ hdelimits }

omit hnafter in
theorem run_extend {x : Text}
    (hx : Lexis.runsThrough ⟨.plain, (Lexis.run {} decl.text).depth⟩ x = true) :
    Lexis.runsThrough {} (decl.text ++ ';' :: x) = true ∧
      Lexis.run {} (decl.text ++ ';' :: x) =
        Lexis.run ⟨.plain, (Lexis.run {} decl.text).depth⟩ x := by
  have hstep := step_run_text hd
  constructor
  · rw [Lexis.runsThrough_append, Lexis.runsThrough_cons, hstep, runsThrough_text hd,
      stops_eq_false hdafter hon, hx]
    rfl
  · rw [Lexis.run_append, Lexis.run_cons, hstep]

omit hnafter in
include hn in
/-- **Everything may be taken in.** -/
theorem delimits_whole (halike : Lexis.Alike decl.text next.text)
    (hopen : ¬ ((Lexis.run {} decl.text).depth = 0 ∧ ';' ∈ next.before)) :
    Statement.Delimits (decl.text ++ ';' :: (next.before ++ next.text)) after stop := by
  have hne : next.text ≠ [] := List.ne_nil_of_mem hn.colon_mem
  obtain ⟨hthrough, hrun⟩ := run_extend hd hdafter hon (runsThrough_next hn hopen)
  have hblank := Lexis.isInert_of_isBlank hd.statement.blank
  refine ⟨?_, hd.statement.blank, ?_, ?_⟩
  · rw [← List.cons_append, ← List.append_assoc, Text.isTight_append_iff hne]
    exact hn.statement.tight
  · rw [Lexis.runsThrough_append, hthrough, Lexis.runsThrough_of_isInert hblank]
    rfl
  · rw [Lexis.run_append, hrun, Lexis.run_append, run_of_isFiller hn.before, ← Lexis.run_append]
    have hends := hn.statement.ends
    -- A character can only stop at no open parenthesis, and then the first declaration has
    -- left none open either.
    cases stop with
    | none =>
      have hbelow : Lexis.Below {} ⟨.plain, (Lexis.run {} decl.text).depth⟩ :=
        ⟨rfl, Nat.zero_le _⟩
      exact (hbelow.run (next.text ++ after)).endsAt_none hends
    | some c =>
      have hdepth := Lexis.depth_eq_zero_of_stops hends
      rw [Lexis.run_append, Lexis.depth_run_of_isBlank (Lexis.isProper_start.run next.text)
        hd.statement.blank, ← (halike {} Lexis.isProper_start).1] at hdepth
      rw [hdepth]
      exact hends

omit hnafter in
/-- **A stray semicolon may end what is taken in.** -/
theorem delimits_cut (hdepth : (Lexis.run {} decl.text).depth = 0) {front : Text}
    (hfront : front.IsBlank) :
    Statement.Delimits (decl.text ++ [';']) front (some ';') := by
  have hblank := Lexis.isInert_of_isBlank hfront
  obtain ⟨hthrough, hrun⟩ := run_extend hd hdafter hon (Lexis.runsThrough_of_isInert hblank)
  rw [hdepth, Lexis.run_start_of_isInert hblank] at hrun
  refine ⟨?_, hfront, ?_, ?_⟩
  · rw [Text.isTight_append_iff (by simp), Text.isTight_singleton]
    decide
  · simpa using hthrough
  · rw [List.append_assoc, List.singleton_append, hrun]
    rfl

/-- Both ways in which a declaration may run on. -/
theorem rejoined_eq (hn : next.Reads after stop) :
    (decl.rejoined next =
        [.declaration
          { decl with value := decl.value ++ ';' :: (next.before ++ next.text), after := [] }] ∧
      ¬ ((Lexis.run {} decl.text).depth = 0 ∧ ';' ∈ next.before)) ∨
    ∃ front rest, front.IsBlank ∧ next.before = front ++ ';' :: rest ∧
      (Lexis.run {} decl.text).depth = 0 ∧
        decl.rejoined next =
          [.declaration { decl with value := decl.value ++ [';'], after := front },
            .declaration { next with before := rest }] := by
  by_cases hcut : (Lexis.run {} decl.text).depth = 0 ∧ ';' ∈ next.before
  · obtain ⟨hdepth, hmem⟩ := hcut
    obtain ⟨front, rest, hbefore, hfirst⟩ := List.eq_append_cons_of_mem hmem
    have hfront : IsBlank front := by
      intro c hc
      have hfiller := hn.before c (by simp [hbefore, hc])
      have hne : c ≠ ';' := ne_of_mem_of_not_mem hc hfirst
      simpa [isFiller, hne] using hfiller
    have htight : IsTight [';'] := Text.isTight_singleton.mpr (by decide)
    obtain ⟨htrim, htrail⟩ := Text.trimEnd_append_of_isTight htight hfront
    rw [List.singleton_append] at htrim htrail
    refine Or.inr ⟨front, rest, hfront, hbefore, hdepth, ?_⟩
    simp only [rejoined, extended, intake_eq_cut hd hdafter hon hnafter hdepth hfront hbefore,
      htrim, htrail, text_of_after hnafter, List.length_append, Nat.add_sub_cancel,
      List.take_left]
  · refine Or.inl ⟨?_, hcut⟩
    have hne : next.text ≠ [] := List.ne_nil_of_mem hn.colon_mem
    have htight : IsTight (';' :: (next.before ++ next.text)) := by
      rw [← List.cons_append, Text.isTight_append_iff hne]
      exact hn.statement.tight
    obtain ⟨htrim, htrail⟩ := Text.trimEnd_append_of_isTight htight Text.isBlank_nil
    rw [List.append_nil] at htrim htrail
    simp only [rejoined, extended, intake_eq_whole hd hdafter hon hn hnafter hcut, htrim, htrail]

/-- **What is read where a declaration runs on into another one** has its shape. -/
theorem allFit_rejoined {Q : AtRule → Text → Option Char → Prop} {closed : Bool}
    (hafter : after.IsFiller) (hn : next.Reads after stop)
    (halike : Lexis.Alike decl.text next.text) :
    Node.AllFit Q after stop false closed (decl.rejoined next) := by
  rcases rejoined_eq hd hdafter hon hnafter hn with ⟨hwhole, hopen⟩ |
    ⟨front, rest, hfront, hbefore, hdepth, hcut⟩
  · have hdelimits := delimits_whole hd hdafter hon hn halike hopen
    rw [hwhole]
    exact ⟨⟨fun _ => rfl, reads_extend hd (by simp; decide) hdelimits⟩, hafter, rfl⟩
  · have hdelimits := delimits_cut hd hdafter hon hdepth hfront
    have hfirst : Text.IsFiller rest := fun c hc => hn.before c (by simp [hbefore, hc])
    rw [hcut]
    exact ⟨⟨nofun, reads_extend hd (by simp; decide) hdelimits⟩,
      ⟨fun _ => hnafter,
        ⟨hfirst, hn.opens, hn.prop, hn.tight, hn.between, hn.value, hn.statement⟩⟩, hafter, rfl⟩

theorem printAll_rejoined (hn : next.Reads after stop) :
    Node.printAll false (decl.rejoined next) =
      Node.printAll false [.declaration decl, .declaration next] := by
  rcases rejoined_eq hd hdafter hon hnafter hn with ⟨hwhole, -⟩ | ⟨front, rest, -, hbefore, -, hcut⟩
  · simp [hwhole, Node.printAll, Node.closer, Node.isClosed, Node.takesSemicolon, Node.before,
      Node.body, text, hdafter, hnafter]
  · simp [hcut, Node.printAll, Node.closer, Node.isClosed, Node.takesSemicolon, Node.before,
      Node.body, hdafter, hnafter, hbefore]

end Reads

end Declaration

end EmScale
