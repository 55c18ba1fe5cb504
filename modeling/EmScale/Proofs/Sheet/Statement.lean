/-
  EmScale/Proofs/Sheet/Statement.lean
  ===================================
  **When a text is one statement.**

  `Delimits text trailing stop` says, without a reader, that `text` is a whole statement if
  the blanks `trailing` and then the character `stop` follow it: nothing in it ends it
  earlier, and `stop` ends it there.  Reading finds exactly these statements
  (`read_eq_ok_iff`).
-/
import EmScale.Proofs.Sheet.Lexis
import EmScale.Sheet.Statement

namespace EmScale.Statement

open Text (IsBlank IsTight)

/-- A statement, the blanks behind it and the character that ends it, or the end of the text. -/
structure Delimits (text trailing : Text) (stop : Option Char) : Prop where
  tight : IsTight text
  blank : IsBlank trailing
  through : Lexis.runsThrough {} (text ++ trailing) = true
  ends : (Lexis.run {} (text ++ trailing)).EndsAt stop

/-- **Reading finds exactly the statements.** -/
theorem read_eq_ok_iff {source : Text} {statement : Statement} :
    read source = .ok statement ↔
      statement.text ++ statement.trailing ++ statement.stop = source ∧
        Delimits statement.text statement.trailing statement.stop.head? := by
  constructor
  · intro h
    refine ⟨read_append h, ?_⟩
    have hthrough := Lexis.runsThrough_split {} source
    have hstops := fun c rest => @Lexis.stops_of_split {} source rest c
    unfold read at h
    simp only at h
    generalize hraw : (Lexis.split {} source).1 = raw at *
    generalize hstop : (Lexis.split {} source).2 = stop at *
    split at h
    · cases h
    · rename_i hstring
      split at h
      · cases h
      · rename_i hcomment
        cases h
        refine ⟨Text.isTight_trimEnd raw, Text.isBlank_trailing raw, ?_, ?_⟩
        · rw [Text.trimEnd_append_trailing]
          exact hthrough
        · rw [Text.trimEnd_append_trailing]
          cases stop with
          | nil => exact ⟨by simpa using hstring, by simpa using hcomment⟩
          | cons c rest => exact hstops c rest rfl
  · rintro ⟨hwhole, hdelimits⟩
    rcases statement with ⟨text, trailing, stop⟩
    dsimp only at hwhole hdelimits
    obtain ⟨htrim, htrail⟩ := Text.trimEnd_append_of_isTight hdelimits.tight hdelimits.blank
    have hsplit : Lexis.split {} source = (text ++ trailing, stop) := by
      rw [← hwhole]
      cases stop with
      | nil => rw [List.append_nil, Lexis.split_of_runsThrough hdelimits.through]
      | cons c rest => exact Lexis.split_append_of_stops hdelimits.through hdelimits.ends
    have hstring := hdelimits.ends.not_inString
    have hcomment := hdelimits.ends.not_inComment
    unfold read
    simp only [hsplit, hstring, hcomment, htrim, htrail, Bool.false_eq_true, if_false]

/-- A text that is alike and does not end with a blank may take the place of a statement. -/
theorem Delimits.congr {text text' trailing : Text} {stop : Option Char}
    (h : Delimits text trailing stop) (halike : Lexis.Alike text text') (htight : IsTight text') :
    Delimits text' trailing stop := by
  obtain ⟨hrun, hthrough⟩ := halike.append (Lexis.Alike.refl trailing) {} Lexis.isProper_start
  exact ⟨htight, h.blank, hthrough ▸ h.through, hrun ▸ h.ends⟩

end EmScale.Statement
