/-
  EmScale/Proofs/Sheet/Finality.lean
  ==================================
  **The first error is final.**

  Reading goes from left to right and looks no further than the piece it reads.  An error
  that is shown in front of the end of a text is therefore the error of every longer text
  (`Stylesheet.parse_append_of_error`).  The end of the text itself decides only where
  something is open there: a string, a comment, a block, or a statement that could go on.  An
  error of that kind is shown up to the end.

  The longer text is read piece by piece like the text.  The one piece that looks at what
  follows it, a leaf that no semicolon closes, looks no further than the first character that
  is no blank, and behind the blanks at the end of a text no fault in front of it is left to
  find (`Stylesheet.not_isBlank_of_meetsFault`).
-/
import EmScale.Proofs.Sheet.Fault

namespace EmScale

open Text (IsBlank StartsOff)

/-! ### Places in a longer text -/

theorem Position.before_append_right (source ahead more : Text) :
    Position.before (source ++ more) (ahead ++ more) = Position.before source ahead := by
  rw [before_eq_after, before_eq_after, List.length_append, List.length_append,
    Nat.add_sub_add_right, List.take_append_of_le_length (Nat.sub_le _ _)]

/-- A fault of a text, if `more` follows the text. -/
def Fault.followedBy (more : Text) (fault : Fault) : Fault :=
  ⟨fault.cause, fault.start ++ more, fault.stop ++ more⟩

/-- A fault is shown at the same place in a longer text. -/
theorem Fault.locate_followedBy (source more : Text) (fault : Fault) :
    (fault.followedBy more).locate (source ++ more) = fault.locate source := by
  rw [locate, locate, followedBy]
  simp only [Position.before_append_right]

/-- What is shown in front of the end of a text leaves some of the text behind it. -/
theorem Fault.stop_ne_nil {source : Text} {fault : Fault}
    (h : (fault.locate source).span.stop.byte < source.byteSize) : fault.stop ≠ [] := by
  intro hstop
  have hend : (fault.locate source).span.stop = Position.after {} source := by
    rw [locate, hstop]
    simp [Position.before_eq_after]
  rw [hend, Position.after_start, Position.byte_behind] at h
  exact Nat.lt_irrefl _ h

/-- A statement that a character ends is read in a longer text. -/
theorem Statement.read_append_of_stop {source : Text} {statement : Statement}
    (h : read source = .ok statement) (hstop : statement.stop ≠ []) (more : Text) :
    read (source ++ more) = .ok { statement with stop := statement.stop ++ more } := by
  obtain ⟨rfl, hdelimits⟩ := read_eq_ok_iff.mp h
  rcases statement with ⟨text, trailing, stop⟩
  rcases stop with _ | ⟨c, stop⟩
  · exact absurd rfl hstop
  · exact read_eq_ok_iff.mpr ⟨by simp, hdelimits⟩

namespace Piece

/-! ### One piece of a longer text -/

/-- What closes a leaf goes on to close it, unless it is the end of the text. -/
theorem Closes.append {rest trailing : Text} {stop : Option Char}
    (h : Closes rest trailing stop) (hblank : trailing.IsBlank) (hrest : ¬ rest.IsBlank)
    (more : Text) : Closes (rest ++ more) trailing stop := by
  obtain ⟨tail, rfl, rfl, hend⟩ := h
  rcases tail with _ | ⟨c, tail⟩
  · rw [List.append_nil] at hrest
    exact absurd hblank hrest
  · exact ⟨c :: tail ++ more, List.append_assoc .., rfl, hend⟩

/-- **A piece is read in a longer text**, unless only blanks follow it. -/
theorem Reads.append {piece : Piece} {rest : Text} (h : piece.Reads rest)
    (hrest : ¬ rest.IsBlank) (more : Text) : piece.Reads (rest ++ more) := by
  match piece, h with
  | closing after, h => exact h
  | opening (.rule head), h => exact h
  | opening (.atRule head), h => exact h
  | leaf (.comment note) closed, h => exact h
  | leaf (.atLine head) true, h => exact h
  | leaf (.declaration decl) true, h => exact h
  | leaf (.atLine head) false, ⟨hbare, hbetween, trailing, stop, hcloses, hhead⟩ =>
    have hcloses' := hcloses.append hhead.statement.blank hrest more
    exact ⟨hbare, hbetween, trailing, stop, hcloses', hhead⟩
  | leaf (.declaration decl) false, ⟨hspan, hafter, trailing, stop, hcloses, hdecl⟩ =>
    have hcloses' := hcloses.append hdecl.statement.blank hrest more
    exact ⟨hspan, hafter, trailing, stop, hcloses', hdecl⟩

/-- An at-rule without a name, behind its sign. -/
theorem readAtRule_of_startsOff {before source : Text} (h : StartsOff isNameCharacter source) :
    readAtRule before source = .error ⟨.missingAtRuleName, '@' :: source, source⟩ := by
  have hname : source.takeWhile isNameCharacter = [] :=
    (Text.takeWhile_append_of_startsOff (a := []) nofun h).1
  unfold readAtRule
  simp only [hname, bind, Except.bind, throw, throwThe, MonadExceptOf.throw]
  rfl

/-- A statement without a colon that opens no block. -/
theorem readStatement_of_not_mem {before source : Text} {statement : Statement}
    (hread : Statement.read source = .ok statement) (hcolon : ':' ∉ statement.text)
    (hblock : ∀ rest, statement.stop ≠ '{' :: rest) :
    readStatement before source =
      .error ⟨.missingColon statement.text, source, statement.stop⟩ := by
  have hcut : statement.text.dropWhile (· != ':') = [] := by
    apply List.dropWhile_eq_nil_iff.mpr
    intro c hc
    have hne : c ≠ ':' := ne_of_mem_of_not_mem hc hcolon
    simpa using hne
  unfold readStatement
  simp only [hread, hcut, bind, Except.bind, throw, throwThe, MonadExceptOf.throw]

/-- Two characters show whether a statement starts. -/
theorem opensStatement_cons_cons (a b : Char) (rest more : Text) :
    opensStatement (a :: b :: rest ++ more) = opensStatement (a :: b :: rest) := by
  simp [opensStatement]

/-- A statement that a semicolon or a closing brace ends is not empty, so it shows in its text
    alone that it starts. -/
theorem opensStatement_append_of_read {source : Text} {statement : Statement}
    (hopens : opensStatement source = true) (h : Statement.read source = .ok statement)
    (hstop : statement.stop ≠ []) (hblock : ∀ rest, statement.stop ≠ '{' :: rest) (more : Text) :
    opensStatement (source ++ more) = true := by
  obtain ⟨rfl, hdelimits⟩ := Statement.read_eq_ok_iff.mp h
  rcases statement with ⟨text, trailing, stop⟩
  dsimp only at *
  rcases stop with _ | ⟨c, stop⟩
  · exact absurd rfl hstop
  · generalize text ++ trailing = front at hopens
    rcases front with _ | ⟨a, _ | ⟨b, front⟩⟩
    · rcases Lexis.eq_of_stops hdelimits.ends with rfl | rfl | rfl
      · exact absurd rfl (hblock stop)
      · simp [opensStatement, isFiller] at hopens
      · simp [opensStatement] at hopens
    · exact (opensStatement_cons_cons a c stop more).trans hopens
    · exact (opensStatement_cons_cons a b (front ++ c :: stop) more).trans hopens

/-- **A piece fails in a longer text** where it fails in the text, unless its fault is shown up
    to the end of the text. -/
theorem read_append_of_error {source : Text} {fault : Fault} (h : read source = .error fault)
    (hstop : fault.stop ≠ []) (more : Text) :
    read (source ++ more) = .error (fault.followedBy more) := by
  obtain ⟨before, here, hbefore, rfl, hfails⟩ := fails_of_read h
  rw [List.append_assoc]
  cases hfails with
  | comment => exact absurd rfl hstop
  | @name behind hname =>
    have hlonger : StartsOff isNameCharacter (behind ++ more) :=
      hname.append fun hempty => absurd hempty hstop
    rw [List.cons_append, read_append_at hbefore, readAtRule_of_startsOff hlonger]
    rfl
  | prelude _ hread =>
    exact absurd (@Statement.isBehind_of_read_error [] _ _ rfl hread).1 hstop
  | @colon _ statement hopens hread hcolon hblock =>
    have hopens' := opensStatement_append_of_read hopens hread hstop hblock more
    have hblock' : ∀ rest, statement.stop ++ more ≠ '{' :: rest := by
      intro rest hrest
      rcases List.append_eq_cons_iff.mp hrest with ⟨hempty, -⟩ | ⟨tail, hbrace, -⟩
      · exact hstop hempty
      · exact hblock tail hbrace
    rw [read_of_opensStatement hbefore hopens',
      readStatement_of_not_mem (Statement.read_append_of_stop hread hstop more) hcolon hblock']
    rfl

end Piece

namespace Stylesheet

/-! ### The whole of a longer text -/

/-- Behind the last piece nothing is at fault but a block that is open up to the end. -/
theorem not_isBlank_of_meetsFault {braces : List Text} {source : Text} {fault : Fault}
    (h : MeetsFault braces source fault) (hstop : fault.stop ≠ []) : ¬ source.IsBlank := by
  intro hblank
  have hfinished : Piece.read source = .ok (.finished source) :=
    Piece.read_eq_finished_iff.mpr ⟨rfl, hblank.isFiller⟩
  cases h with
  | found hpiece => simp [hfinished] at hpiece
  | unclosed hpiece => exact hstop rfl
  | unopened hpiece => simp [hfinished] at hpiece
  | leaf hpiece _ => simp [hfinished] at hpiece
  | opening hpiece _ => simp [hfinished] at hpiece
  | closing hpiece _ => simp [hfinished] at hpiece

/-- A piece is read in a longer text, if more than blanks follow it. -/
theorem read_append_of_not_isBlank {source rest : Text} {piece : Piece}
    (h : Piece.read source = .ok (.piece piece rest)) (hrest : ¬ rest.IsBlank) (more : Text) :
    Piece.read (source ++ more) = .ok (.piece piece (rest ++ more)) := by
  obtain ⟨hprint, hreads⟩ := Piece.read_eq_piece_iff.mp h
  rw [← hprint, List.append_assoc]
  exact Piece.read_of_reads (hreads.append hrest more)

theorem read_append_closing {source rest after : Text}
    (h : Piece.read source = .ok (.piece (.closing after) rest)) (more : Text) :
    Piece.read (source ++ more) = .ok (.piece (.closing after) (rest ++ more)) := by
  obtain ⟨hprint, hreads⟩ := Piece.read_eq_piece_iff.mp h
  rw [← hprint, List.append_assoc]
  exact Piece.read_of_reads hreads

/-- **A fault is met in a longer text** behind the same pieces.  The braces of the open blocks
    have more text behind them, and nothing else changes. -/
theorem meetsFault_append {braces : List Text} {source : Text} {fault : Fault}
    (h : MeetsFault braces source fault) (hstop : fault.stop ≠ []) (more : Text) :
    MeetsFault (braces.map (· ++ more)) (source ++ more) (fault.followedBy more) := by
  induction h with
  | found hpiece => exact .found (Piece.read_append_of_error hpiece hstop more)
  | unclosed => exact absurd rfl hstop
  | unopened hpiece => exact .unopened (read_append_closing hpiece more)
  | leaf hpiece hrest ih =>
    have hblank := not_isBlank_of_meetsFault hrest hstop
    exact .leaf (read_append_of_not_isBlank hpiece hblank more) (ih hstop)
  | opening hpiece hrest ih =>
    have hblank := not_isBlank_of_meetsFault hrest hstop
    exact .opening (read_append_of_not_isBlank hpiece hblank more) (ih hstop)
  | closing hpiece _ ih => exact .closing (read_append_closing hpiece more) (ih hstop)

theorem parse_append {css : Text} {error : ParseError} (h : parse css = .error error)
    (hstop : error.span.stop.byte < css.byteSize) (more : Text) :
    parse (css ++ more) = .error error := by
  obtain ⟨fault, hread, rfl⟩ := parse_eq_error_iff.mp h
  have hlonger := meetsFault_append (read_eq_error_iff.mp hread) (Fault.stop_ne_nil hstop) more
  exact parse_eq_error_iff.mpr
    ⟨_, read_eq_error_iff.mpr hlonger, Fault.locate_followedBy css more fault⟩

/-- **The first error is final.**  An error that is shown in front of the end of a text is the
    error of every longer text, so one that more text can repair is shown up to the end. -/
theorem parse_append_of_error {css : Text} {error : ParseError} (h : parse css = .error error)
    (more : Text) :
    (error.span.stop.byte < css.byteSize → parse (css ++ more) = .error error) ∧
      (parse (css ++ more) ≠ .error error → error.span.stop.byte = css.byteSize) := by
  constructor
  · intro hstop
    exact parse_append h hstop more
  · intro hrepaired
    apply Nat.le_antisymm (isAt_of_parse h).start_le_stop.2
    by_contra hstop
    exact hrepaired (parse_append h (Nat.lt_of_not_le hstop) more)

/-- A declaration without a colon, in front of the brace that closes its block. -/
theorem parse_append_of_error_colon :
    ∃ error, parse "a\x7bb:'\x7d';c \x7d".toList = .error error ∧ error.span.stop.byte = 10 ∧
      ∀ more, parse ("a\x7bb:'\x7d';c \x7d".toList ++ more) = .error error := by
  have h : parse "a\x7bb:'\x7d';c \x7d".toList =
      .error ⟨.missingColon ['c'], ⟨⟨8, 0, 8⟩, ⟨10, 0, 10⟩⟩⟩ := by
    cbv
  exact ⟨_, h, rfl, fun more => (parse_append_of_error h more).1 (by decide)⟩

end Stylesheet

end EmScale
