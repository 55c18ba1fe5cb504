/-
  EmScale/Proofs/Sheet/Fault.lean
  ===============================
  **An error points at its cause.**

  `Cause.Stands` says for each cause what stands at the place of an error, by the characters
  there and by what the text has opened and not closed, with no reader of nodes.  The errors
  of a text all stand where they say (`Stylesheet.isAt_and_check_of_parse`).

  Two things are known at the start of every piece.  Nothing is open but blocks, unless the
  piece in front was left to be closed by the end of its block (`Piece.Rests`).  And the braces
  of the blocks on the stack are those of the text that are open there (`Encloses`).  Both are
  kept from one piece to the next, so the induction is on how reading comes to the fault
  (`Stylesheet.MeetsFault`).
-/
import EmScale.Diagnostic
import EmScale.Proofs.Cursor
import EmScale.Proofs.Sheet.Nesting
import EmScale.Proofs.Sheet.RoundTrip

namespace EmScale

open Unicode (isWhiteSpace)
open Text (IsBlank StartsOff)

/-! ### Where an error belongs -/

/-- What stands at an error: `part` is the text it is shown at, between `front` and `back`. -/
def Cause.Stands (front part back : Text) : Cause → Prop
  | unclosedBlock =>
    back = [] ∧ ∃ inside, part = '{' :: inside ∧
      (Lexis.run {} front).stops '{' = true ∧ Lexis.openBlocks {} 0 inside = some 0
  | unexpectedCloseBrace =>
    part = [] ∧ back.head? = some '}' ∧
      (Lexis.run {} front).stops '}' = true ∧ Lexis.openBlocks {} 0 front = some 0
  | unterminatedString =>
    back = [] ∧ ∃ quote body, part = quote :: body ∧ (quote = '"' ∨ quote = '\'') ∧
      Lexis.LeavesOpen Lexis.inString front [quote] body
  | unterminatedComment =>
    back = [] ∧ ∃ body, part = '/' :: '*' :: body ∧
      Lexis.LeavesOpen Lexis.inComment front ['/', '*'] body
  | missingColon text => part.trimEnd = text ∧ ':' ∉ text
  | missingAtRuleName => part = ['@'] ∧ StartsOff isNameCharacter back

/-- An error whose span marks a part of the text where its cause stands. -/
def ParseError.IsAt (css : Text) (error : ParseError) : Prop :=
  ∃ front part back, css = front ++ (part ++ back) ∧
    error.span = ⟨.behind front, .behind (front ++ part)⟩ ∧ error.cause.Stands front part back

/-- A fault found in a text, of which `front` is the part in front of it. -/
def Fault.IsBehind (front : Text) (fault : Fault) : Prop :=
  ∃ part, fault.start = part ++ fault.stop ∧ fault.cause.Stands front part fault.stop

/-- A fault is shown where it is found. -/
theorem Fault.IsBehind.isAt {front css : Text} {fault : Fault} (h : fault.IsBehind front)
    (hcss : css = front ++ fault.start) : (fault.locate css).IsAt css := by
  obtain ⟨part, hstart, hstands⟩ := h
  refine ⟨front, part, fault.stop, hcss.trans (congrArg _ hstart), ?_, hstands⟩
  have hbegin : Position.before css fault.start = .behind front := by
    rw [hcss, Position.before_append]
  have hend : Position.before css fault.stop = .behind (front ++ part) := by
    rw [hcss, hstart, ← List.append_assoc, Position.before_append]
  rw [locate, hbegin, hend]

theorem ParseError.IsAt.start_le_stop {css : Text} {error : ParseError} (h : error.IsAt css) :
    error.span.start.byte ≤ error.span.stop.byte ∧ error.span.stop.byte ≤ css.byteSize := by
  obtain ⟨front, part, back, hcss, hspan, -⟩ := h
  have hcovers : error.span.Covers css part := ⟨front, back, hcss, hspan⟩
  exact ⟨hcovers.start_le_stop, hcovers.stop_le⟩

/-! ### Faults of statements -/

namespace Statement

/-- Inside a string or a comment no character ends a statement, so the text does. -/
theorem split_eq_of_not_isOutside {source : Text}
    (h : (Lexis.run {} (Lexis.split {} source).1).isOutside = false) :
    (Lexis.split {} source).1 = source ∧ (Lexis.split {} source).2 = [] := by
  rcases hstop : (Lexis.split {} source).2 with _ | ⟨c, rest⟩
  · have hwhole := Lexis.split_append {} source
    rw [hstop, List.append_nil] at hwhole
    exact ⟨hwhole, rfl⟩
  · have hstops := Lexis.stops_of_split hstop
    rw [Lexis.stops, h] at hstops
    cases hstops

/-- **A statement fails at the string or the comment that it leaves open.** -/
theorem isBehind_of_read_error {front source : Text} {fault : Fault}
    (hfront : Lexis.run {} front = {}) (h : read source = .error fault) :
    fault.stop = [] ∧
      ∃ more, source = more ++ fault.start ∧ fault.IsBehind (front ++ more) := by
  unfold read at h
  dsimp only at h
  split at h
  · rename_i hstring
    obtain ⟨hraw, hstop⟩ := split_eq_of_not_isOutside (Lexis.not_isOutside_of_inString hstring)
    rw [hraw] at hstring
    rw [hstop] at h
    cases h
    obtain ⟨more, quote, body, hsource, hquote, hlast, hopen⟩ :=
      Lexis.leavesOpen_of_inString hstring
    rw [hlast]
    exact ⟨rfl, more, hsource, quote :: body, by simp, rfl, quote, body, rfl, hquote,
      hopen.append_left hfront⟩
  · split at h
    · rename_i hcomment
      obtain ⟨hraw, hstop⟩ := split_eq_of_not_isOutside (Lexis.not_isOutside_of_inComment hcomment)
      rw [hraw] at hcomment
      rw [hstop] at h
      cases h
      obtain ⟨more, body, hsource, hlast, hopen⟩ := Lexis.leavesOpen_of_inComment hcomment
      rw [hlast]
      exact ⟨rfl, more, hsource, '/' :: '*' :: body, by simp, rfl, body, rfl,
        hopen.append_left hfront⟩
    · cases h

end Statement

/-! ### Faults of pieces -/

namespace Piece

/-- The sign, the name and the blanks that an at-rule starts with mean nothing to the scan of
    statements. -/
theorem isInert_atSign {name blanks : Text} (hname : ∀ c ∈ name, isNameCharacter c = true)
    (hblanks : IsBlank blanks) : ∀ c ∈ '@' :: (name ++ blanks), Lexis.isInert c = true := by
  intro c hc
  rcases List.mem_cons.mp hc with rfl | hc
  · decide
  · exact isInert_name hname hblanks c hc

/-- The faults that are found at a place where a piece starts: a comment without an end, a sign
    without a name, a string or a comment that is open in a prelude, a selector or a declaration,
    and a statement without a colon that opens no block. -/
inductive Fails : Text → Fault → Prop
  | comment {body : Text} (hfree : ¬ ['*', '/'] <:+: body) :
    Fails ('/' :: '*' :: body) ⟨.unterminatedComment, '/' :: '*' :: body, []⟩
  | name {behind : Text} (hname : StartsOff isNameCharacter behind) :
    Fails ('@' :: behind) ⟨.missingAtRuleName, '@' :: behind, behind⟩
  | prelude {front source : Text} {fault : Fault} (hfront : ∀ c ∈ front, Lexis.isInert c = true)
    (hread : Statement.read source = .error fault) : Fails (front ++ source) fault
  | colon {source : Text} {statement : Statement} (hopens : opensStatement source = true)
    (hread : Statement.read source = .ok statement) (hcolon : ':' ∉ statement.text)
    (hblock : ∀ rest, statement.stop ≠ '{' :: rest) :
    Fails source ⟨.missingColon statement.text, source, statement.stop⟩

theorem splitComment_eq_none_iff {source : Text} :
    splitComment source = none ↔ ¬ ['*', '/'] <:+: source := by
  fun_induction splitComment source with
  | case1 => simp
  | case2 rest =>
    have hfound : ['*', '/'] <:+: '*' :: '/' :: rest := ⟨[], rest, rfl⟩
    simp [hfound]
  | case3 c rest hne ih =>
    rw [Option.map_eq_none_iff, ih, List.infix_cons_iff, not_or]
    refine ⟨fun h => ⟨?_, h⟩, fun h => h.2⟩
    rintro ⟨tail, htail⟩
    cases htail
    exact hne tail rfl rfl

theorem fails_of_readStatement {before source : Text} {fault : Fault}
    (hopens : opensStatement source = true) (h : readStatement before source = .error fault) :
    Fails source fault := by
  unfold readStatement at h
  simp only [bind, Except.bind, pure, Except.pure, throw, throwThe, MonadExceptOf.throw] at h
  split at h
  · rename_i hread
    cases h
    exact @Fails.prelude [] _ _ nofun hread
  · rename_i statement hread
    split at h
    · cases h
    · rename_i hcut hblock
      cases h
      have hcolon : ':' ∉ statement.text := by
        intro hmem
        have hall := List.dropWhile_eq_nil_iff.mp hcut ':' hmem
        cases hall
      exact Fails.colon hopens hread hcolon hblock
    · split at h <;> cases h

theorem fails_of_readAtRule {before source : Text} {fault : Fault}
    (h : readAtRule before source = .error fault) : Fails ('@' :: source) fault := by
  unfold readAtRule at h
  simp only [bind, Except.bind, pure, Except.pure, throw, throwThe, MonadExceptOf.throw] at h
  split at h
  · rename_i hname
    cases h
    apply Fails.name
    have hoff := Text.startsOff_dropWhile isNameCharacter source
    rw [← List.takeWhile_append_dropWhile (p := isNameCharacter) (l := source),
      List.isEmpty_iff.mp hname]
    exact hoff
  · split at h
    · rename_i hread
      cases h
      have hwhole : '@' :: source =
          '@' :: (source.takeWhile isNameCharacter ++
            (source.dropWhile isNameCharacter).takeWhile isWhiteSpace) ++
            (source.dropWhile isNameCharacter).dropWhile isWhiteSpace := by
        simp
      rw [hwhole]
      exact Fails.prelude
        (isInert_atSign (fun _ hc => Text.mem_takeWhile hc) (Text.isBlank_takeWhile _)) hread
    · split at h <;> cases h

/-- **Reading fails behind blanks and stray semicolons**, where a piece starts. -/
theorem fails_of_read {source : Text} {fault : Fault} (h : read source = .error fault) :
    ∃ before here, before.IsFiller ∧ source = before ++ here ∧ Fails here fault := by
  refine ⟨source.takeWhile isFiller, source.dropWhile isFiller, fun _ hc => Text.mem_takeWhile hc,
    List.takeWhile_append_dropWhile.symm, ?_⟩
  unfold read at h
  dsimp only at h
  split at h
  · cases h
  · cases h
  · rename_i hhere
    rw [hhere]
    unfold readComment at h
    split at h
    · rename_i hsplit
      cases h
      exact Fails.comment (splitComment_eq_none_iff.mp hsplit)
    · cases h
  · rename_i hhere
    rw [hhere]
    exact fails_of_readAtRule h
  · rename_i hempty hclosing hcomment hat
    exact fails_of_readStatement (opensStatement_dropWhile hempty hclosing hcomment hat) h

/-- **A piece fails where its cause stands**, if nothing is open in front of it. -/
theorem Fails.isBehind {front here : Text} {fault : Fault} (h : Fails here fault)
    (hfront : Lexis.run {} front = {}) :
    ∃ more, here = more ++ fault.start ∧ fault.IsBehind (front ++ more) := by
  cases h with
  | @comment body hfree =>
    have hopen := Lexis.leavesOpen_comment hfront hfree
    rw [← List.append_nil front] at hopen
    exact ⟨[], rfl, '/' :: '*' :: body, by simp, rfl, body, rfl, hopen⟩
  | name hname => exact ⟨[], rfl, ['@'], rfl, rfl, hname⟩
  | @prelude lead source _ hlead hread =>
    have hplace : Lexis.run {} (front ++ lead) = {} := by
      rw [Lexis.run_append, hfront, Lexis.run_start_of_isInert hlead]
    obtain ⟨-, more, rfl, hbehind⟩ := Statement.isBehind_of_read_error hplace hread
    rw [List.append_assoc] at hbehind
    exact ⟨lead ++ more, (List.append_assoc ..).symm, hbehind⟩
  | @colon source statement _ hread hcolon _ =>
    obtain ⟨hwhole, hdelimits⟩ := Statement.read_eq_ok_iff.mp hread
    refine ⟨[], rfl, statement.text ++ statement.trailing, hwhole.symm, ?_, hcolon⟩
    exact (Text.trimEnd_append_of_isTight hdelimits.tight hdelimits.blank).1

/-! ### What pieces leave open -/

open Lexis (IsNeutral)

theorem isNeutral_of_isFiller {t : Text} (ht : t.IsFiller) : IsNeutral t := by
  induction t with
  | nil => exact Lexis.isNeutral_nil
  | cons c t ih =>
    have hrest : IsNeutral t := ih fun d hd => ht d (List.mem_cons_of_mem c hd)
    have hc := ht c (by simp)
    simp only [isFiller, Bool.or_eq_true, beq_iff_eq] at hc
    have hfirst : IsNeutral [c] := by
      rcases hc with hc | rfl
      · apply Lexis.isNeutral_of_isInert
        intro d hd
        rw [List.mem_singleton.mp hd]
        exact Lexis.isInert_of_false (by decide) hc
      · exact Lexis.isNeutral_semicolon (t := []) rfl rfl
    exact hfirst.append hrest

/-- What stands in front of the next piece: nothing is open but blocks, or the piece in front of
    it is closed by the end of its block, with `trailing` in between. -/
def Rests (s : Lexis) (source : Text) : Prop :=
  s = {} ∨ ∃ trailing stop, Closes source trailing stop ∧ trailing.IsBlank ∧
    (s.run trailing).EndsAt stop

section Leaves

variable {lead text trailing rest : Text} {stop : Option Char}

theorem isNeutral_closed (hlead : IsNeutral lead)
    (h : Statement.Delimits text trailing (some ';')) :
    IsNeutral (lead ++ (text ++ trailing ++ [';'])) :=
  hlead.append (Lexis.isNeutral_semicolon h.through h.ends)

theorem rests_unclosed (hlead : IsNeutral lead) (h : Statement.Delimits text trailing stop)
    (hcloses : Closes rest trailing stop) :
    Lexis.openBlocks {} 0 (lead ++ text) = some 0 ∧ Rests (Lexis.run {} (lead ++ text)) rest := by
  have hthrough := h.through
  rw [Lexis.runsThrough_append, Bool.and_eq_true] at hthrough
  rw [hlead.openBlocks_append, hlead.run_append]
  have hends := h.ends
  rw [Lexis.run_append] at hends
  exact ⟨Lexis.openBlocks_of_runsThrough hthrough.1 0,
    Or.inr ⟨trailing, stop, hcloses, h.blank, hends⟩⟩

theorem stops_opening (hlead : IsNeutral lead) (h : Statement.Delimits text trailing (some '{')) :
    Lexis.openBlocks {} 0 (lead ++ (text ++ trailing)) = some 0 ∧
      (Lexis.run {} (lead ++ (text ++ trailing))).stops '{' = true := by
  rw [hlead.openBlocks_append, hlead.run_append]
  exact ⟨Lexis.openBlocks_of_runsThrough h.through 0, h.ends⟩

theorem isNeutral_atSign {head : AtRule} (h : head.Stands trailing stop) :
    IsNeutral (head.raws.before ++ '@' :: (head.name ++ head.afterName)) :=
  (isNeutral_of_isFiller h.before).append
    (Lexis.isNeutral_of_isInert (isInert_atSign h.name h.afterName))

/-- **A leaf** opens and closes no block, and leaves nothing open that its semicolon or the end
    of its block does not close. -/
theorem rests_leaf {node : Node} {closed : Bool} (h : (leaf node closed).Reads rest) :
    Lexis.openBlocks {} 0 (leaf node closed).print = some 0 ∧
      Rests (Lexis.run {} (leaf node closed).print) rest := by
  match node, closed, h with
  | .comment note, closed, ⟨_, hopen, hnote⟩ =>
    subst hopen
    have hneutral : IsNeutral (leaf (.comment note) false).print := by
      simpa [print, Node.before, Node.body] using
        (isNeutral_of_isFiller hnote.before).append (Lexis.isNeutral_comment hnote.text)
    exact ⟨hneutral.blocks, Or.inl hneutral.run⟩
  | .atLine head, true, ⟨_, hhead⟩ =>
    have hneutral : IsNeutral (leaf (.atLine head) true).print := by
      simpa [print, Node.before, Node.body, AtRule.print] using
        isNeutral_closed (isNeutral_atSign hhead.toStands) hhead.statement
    exact ⟨hneutral.blocks, Or.inl hneutral.run⟩
  | .atLine head, false, ⟨_, hbetween, _, _, hcloses, hhead⟩ =>
    simpa [print, Node.before, Node.body, AtRule.print, hbetween] using
      rests_unclosed (isNeutral_atSign hhead.toStands) hhead.statement hcloses
  | .declaration decl, true, ⟨_, hdecl⟩ =>
    have hneutral : IsNeutral (leaf (.declaration decl) true).print := by
      simpa [print, Node.before, Node.body, Declaration.text] using
        isNeutral_closed (isNeutral_of_isFiller hdecl.before) hdecl.statement
    exact ⟨hneutral.blocks, Or.inl hneutral.run⟩
  | .declaration decl, false, ⟨_, hafter, _, _, hcloses, hdecl⟩ =>
    simpa [print, Node.before, Node.body, Declaration.text, hafter] using
      rests_unclosed (isNeutral_of_isFiller hdecl.before) hdecl.statement hcloses

/-- **The head of a block** is followed by a brace that opens it. -/
theorem stops_heading {heading : Heading} (h : (opening heading).Reads rest) :
    Lexis.openBlocks {} 0 (heading.before ++ heading.print) = some 0 ∧
      (Lexis.run {} (heading.before ++ heading.print)).stops '{' = true := by
  cases heading with
  | rule head => exact stops_opening (isNeutral_of_isFiller h.2.before) h.2.statement
  | atRule head =>
    simpa [Heading.before, Heading.print, AtRule.print] using
      stops_opening (isNeutral_atSign h.2.toStands) h.2.statement

end Leaves

/-! ### The end of a block -/

section Rests

variable {s : Lexis} {source after rest : Text} {piece : Piece}

theorem Rests.finished (h : Rests s source) (hread : read source = .ok (.finished after)) :
    s.openBlocks 0 source = some 0 := by
  obtain ⟨rfl, hfiller⟩ := read_eq_finished_iff.mp hread
  rcases h with rfl | ⟨trailing, stop, hcloses, hblank, -⟩
  · exact (isNeutral_of_isFiller hfiller).blocks
  · rcases read_of_closes hcloses hblank with ⟨hsource, -, -⟩ | ⟨-, rest, -, hclosing⟩
    · rw [hsource]
      exact Lexis.openBlocks_of_runsThrough
        (Lexis.runsThrough_of_isInert (Lexis.isInert_of_isBlank hblank)) 0
    · rw [hread] at hclosing
      cases hclosing

theorem Rests.closing (h : Rests s source)
    (hread : read source = .ok (.piece (.closing after) rest)) :
    s.openBlocks 0 after = some 0 ∧ (s.run after).stops '}' = true := by
  have hfiller : after.IsFiller := (read_eq_piece_iff.mp hread).2
  rcases h with rfl | ⟨trailing, stop, hcloses, hblank, hends⟩
  · have hneutral := isNeutral_of_isFiller hfiller
    rw [hneutral.run]
    exact ⟨hneutral.blocks, rfl⟩
  · rcases read_of_closes hcloses hblank with ⟨-, -, hfinished⟩ | ⟨rfl, rest', -, hclosing⟩
    · rw [hread] at hfinished
      cases hfinished
    · rw [hread] at hclosing
      cases hclosing
      exact ⟨Lexis.openBlocks_of_runsThrough
        (Lexis.runsThrough_of_isInert (Lexis.isInert_of_isBlank hblank)) 0, hends⟩

/-- Where anything but the end of a block is read, nothing is open. -/
theorem Rests.eq_start (h : Rests s source)
    (hfinished : ∀ after, read source ≠ .ok (.finished after))
    (hclosing : ∀ after rest, read source ≠ .ok (.piece (.closing after) rest)) : s = {} := by
  rcases h with rfl | ⟨trailing, stop, hcloses, hblank, -⟩
  · rfl
  · rcases read_of_closes hcloses hblank with ⟨-, -, hread⟩ | ⟨-, rest, -, hread⟩
    · exact absurd hread (hfinished trailing)
    · exact absurd hread (hclosing trailing rest)

end Rests

end Piece

/-! ### Blocks that are open -/

/-- The braces of `front` that are open where `source` starts, the innermost one first, each with
    all that follows it. -/
inductive Encloses : Text → Text → List Text → Prop
  | nil {front source : Text} (hfront : Lexis.openBlocks {} 0 front = some 0) :
    Encloses front source []
  | cons {outer inner source : Text} {braces : List Text}
    (hbrace : (Lexis.run {} outer).stops '{' = true)
    (hinner : Lexis.openBlocks {} 0 inner = some 0)
    (houter : Encloses outer ('{' :: (inner ++ source)) braces) :
    Encloses (outer ++ '{' :: inner) source (('{' :: (inner ++ source)) :: braces)

namespace Encloses

variable {front source brace : Text} {braces : List Text}

theorem of_nil (h : Encloses front source []) : Lexis.openBlocks {} 0 front = some 0 := by
  cases h with
  | nil hfront => exact hfront

theorem innermost (h : Encloses front source (brace :: braces)) :
    ∃ outer inner, front = outer ++ '{' :: inner ∧ brace = '{' :: (inner ++ source) ∧
      (Lexis.run {} outer).stops '{' = true ∧ Lexis.openBlocks {} 0 inner = some 0 := by
  cases h with
  | @cons outer inner _ _ hbrace hinner _ => exact ⟨outer, inner, rfl, rfl, hbrace, hinner⟩

/-- A text that opens no block, or closes all it opens, leaves the stack as it is. -/
theorem append {part : Text} (h : Encloses front (part ++ source) braces)
    (hpart : (Lexis.run {} front).openBlocks 0 part = some 0) :
    Encloses (front ++ part) source braces := by
  cases h with
  | nil hfront =>
    apply nil
    rw [Lexis.openBlocks_append_of_eq hfront, hpart]
  | @cons outer inner _ braces hbrace hinner houter =>
    rw [← List.append_assoc] at houter
    rw [Lexis.run_append, Lexis.run_cons, Lexis.step_of_stops hbrace] at hpart
    rw [List.append_assoc, List.cons_append, ← List.append_assoc]
    apply cons hbrace _ houter
    rw [Lexis.openBlocks_append_of_eq hinner, hpart]

theorem opening (h : Encloses front ('{' :: source) braces)
    (hbrace : (Lexis.run {} front).stops '{' = true) :
    Encloses (front ++ ['{']) source (('{' :: source) :: braces) :=
  @cons front [] source braces hbrace rfl h

theorem closing (h : Encloses front ('}' :: source) (brace :: braces))
    (hbrace : (Lexis.run {} front).stops '}' = true) : Encloses (front ++ ['}']) source braces := by
  cases h with
  | @cons outer inner _ _ hopen hinner houter =>
    have hwhole : '{' :: (inner ++ '}' :: source) = '{' :: (inner ++ ['}']) ++ source := by simp
    rw [hwhole] at houter
    rw [Lexis.run_append, Lexis.run_cons, Lexis.step_of_stops hopen] at hbrace
    rw [List.append_assoc, List.cons_append]
    exact houter.append (Lexis.openBlocks_block hopen hinner hbrace)

end Encloses

namespace Stylesheet

/-! ### The whole text -/

section Cases

variable {css front source rest after brace : Text} {braces : List Text} {fault : Fault}
  (hcss : css = front ++ source) (hrests : Piece.Rests (Lexis.run {} front) source)

include hcss hrests

theorem isAt_of_piece (hpiece : Piece.read source = .error fault) :
    (fault.locate css).IsAt css := by
  have hstart : Lexis.run {} front = {} := hrests.eq_start (by simp [hpiece]) (by simp [hpiece])
  obtain ⟨before, here, hbefore, rfl, hfails⟩ := Piece.fails_of_read hpiece
  have hplace : Lexis.run {} (front ++ before) = {} := by
    rw [Lexis.run_append, hstart, (Piece.isNeutral_of_isFiller hbefore).run]
  obtain ⟨more, rfl, hbehind⟩ := hfails.isBehind hplace
  apply hbehind.isAt
  rw [hcss]
  simp only [List.append_assoc]

theorem isAt_of_closing (hpiece : Piece.read source = .ok (.piece (.closing after) rest))
    (hblocks : Encloses front source []) :
    (Fault.locate css ⟨.unexpectedCloseBrace, '}' :: rest, '}' :: rest⟩).IsAt css := by
  obtain ⟨rfl, -⟩ := Piece.read_eq_piece_iff.mp hpiece
  obtain ⟨hkeeps, hbrace⟩ := hrests.closing hpiece
  rw [Piece.print, List.append_assoc, List.singleton_append] at hcss hblocks
  rw [← Lexis.run_append] at hbrace
  have hbehind : Fault.IsBehind (front ++ after)
      ⟨.unexpectedCloseBrace, '}' :: rest, '}' :: rest⟩ :=
    ⟨[], rfl, rfl, rfl, hbrace, (hblocks.append hkeeps).of_nil⟩
  exact hbehind.isAt (by rw [hcss, List.append_assoc])

theorem isAt_of_finished (hpiece : Piece.read source = .ok (.finished after))
    (hblocks : Encloses front source (brace :: braces)) :
    (Fault.locate css ⟨.unclosedBlock, brace, []⟩).IsAt css := by
  rw [← List.append_nil source] at hblocks
  obtain ⟨outer, inner, hfront, hblock, hbrace, hinner⟩ :=
    (hblocks.append (hrests.finished hpiece)).innermost
  rw [List.append_nil] at hblock
  have hbehind : Fault.IsBehind outer ⟨.unclosedBlock, brace, []⟩ :=
    ⟨brace, (List.append_nil _).symm, rfl, inner, hblock, hbrace, hinner⟩
  exact hbehind.isAt (by rw [hcss, hfront, hblock])

end Cases

/-- **A fault that reading the rest of a text meets stands where its cause is.** -/
theorem isAt_of_meetsFault {css source : Text} {braces : List Text} {fault : Fault}
    (h : MeetsFault braces source fault) : ∀ {front : Text}, css = front ++ source →
      Piece.Rests (Lexis.run {} front) source → Encloses front source braces →
        (fault.locate css).IsAt css := by
  induction h with
  | found hpiece =>
    intro front hcss hrests _
    exact isAt_of_piece hcss hrests hpiece
  | unclosed hpiece =>
    intro front hcss hrests hblocks
    exact isAt_of_finished hcss hrests hpiece hblocks
  | unopened hpiece =>
    intro front hcss hrests hblocks
    exact isAt_of_closing hcss hrests hpiece hblocks
  | leaf hpiece _ ih =>
    -- The stack stays, and what the leaf leaves open is what `Rests` allows for.
    intro front hcss hrests hblocks
    obtain ⟨hprint, hreads⟩ := Piece.read_eq_piece_iff.mp hpiece
    have hstart := hrests.eq_start (by simp [hpiece]) (by simp [hpiece])
    obtain ⟨hkeeps, hrests'⟩ := Piece.rests_leaf hreads
    rw [← hstart] at hkeeps
    rw [← hstart, ← Lexis.run_append] at hrests'
    rw [← hprint] at hcss hblocks
    rw [← List.append_assoc] at hcss
    exact ih hcss hrests' (hblocks.append hkeeps)
  | opening hpiece _ ih =>
    -- The brace behind the head is the innermost one from here on.
    intro front hcss hrests hblocks
    obtain ⟨hprint, hreads⟩ := Piece.read_eq_piece_iff.mp hpiece
    have hstart := hrests.eq_start (by simp [hpiece]) (by simp [hpiece])
    obtain ⟨hkeeps, hbrace⟩ := Piece.stops_heading hreads
    rw [← hstart] at hkeeps
    rw [← hstart, ← Lexis.run_append] at hbrace
    rw [← hprint, Piece.print, List.append_assoc, List.singleton_append] at hcss hblocks
    apply ih _ (Or.inl _) ((hblocks.append hkeeps).opening hbrace)
    · rw [hcss]
      simp
    · rw [Lexis.run_append]
      exact Lexis.step_of_stops hbrace
  | closing hpiece _ ih =>
    -- The innermost block ends, and the text of the block around it goes on.
    intro front hcss hrests hblocks
    obtain ⟨hprint, -⟩ := Piece.read_eq_piece_iff.mp hpiece
    obtain ⟨hkeeps, hbrace⟩ := hrests.closing hpiece
    rw [← Lexis.run_append] at hbrace
    rw [← hprint, Piece.print, List.append_assoc, List.singleton_append] at hcss hblocks
    apply ih _ (Or.inl _) ((hblocks.append hkeeps).closing hbrace)
    · rw [hcss]
      simp
    · rw [Lexis.run_append]
      exact Lexis.step_of_stops hbrace

theorem isAt_of_parse {css : Text} {error : ParseError} (h : parse css = .error error) :
    error.IsAt css := by
  obtain ⟨fault, hread, rfl⟩ := parse_eq_error_iff.mp h
  have hsource : css = [] ++ css := rfl
  exact isAt_of_meetsFault (read_eq_error_iff.mp hread) hsource (Or.inl rfl) (Encloses.nil rfl)

/-- **An error points at its cause.**  It is shown at a part of the text where its cause stands,
    and it is the one thing that a check reports; a check of a stylesheet reports nothing. -/
theorem isAt_and_check_of_parse (css : Text) :
    (∀ error, parse css = .error error →
      error.IsAt css ∧
        error.span.start.byte ≤ error.span.stop.byte ∧
        error.span.stop.byte ≤ css.byteSize ∧
        check css = [{
          message := some error.message
          start := error.span.start.byte
          stop := error.span.stop.byte
          line := error.span.start.line + 1
          column := error.span.start.column + 1 }]) ∧
      ∀ sheet, parse css = .ok sheet → check css = [] := by
  constructor
  · intro error h
    have hat := isAt_of_parse h
    refine ⟨hat, hat.start_le_stop.1, hat.start_le_stop.2, ?_⟩
    rw [check, h]
    rfl
  · intro sheet h
    rw [check, h]

/-- Two blocks are open at the end, and a comment hides a brace behind the inner one. -/
theorem isAt_of_parse_unclosed :
    ∃ error, parse "@m 'é' \x7b\n p\x7bq:r\x7d s \x7b/*\x7d*/ ".toList = .error error ∧
      error = ⟨.unclosedBlock, ⟨⟨20, 1, 10⟩, ⟨27, 1, 17⟩⟩⟩ ∧
      error.IsAt "@m 'é' \x7b\n p\x7bq:r\x7d s \x7b/*\x7d*/ ".toList := by
  have h : parse "@m 'é' \x7b\n p\x7bq:r\x7d s \x7b/*\x7d*/ ".toList =
      .error ⟨.unclosedBlock, ⟨⟨20, 1, 10⟩, ⟨27, 1, 17⟩⟩⟩ := by
    cbv
  exact ⟨_, h, rfl, ((isAt_and_check_of_parse _).1 _ h).1⟩

end Stylesheet

end EmScale
