/-
  EmScale/Proofs/Converter/FixedPoint.lean
  ========================================
  **Trees that were converted stay as they are.**

  A second run over the text of a first one may find other declarations than the first run
  left, since a declaration that runs on takes in what was put behind it.  A second run over
  the tree finds what the first one left.  So no condition on the tree is needed, be it read
  or built by hand: each declaration is left as it is (`Converter.allLeft_convertAll`), and
  the same goes for the heads of at-rules and inside of every block.
-/
import EmScale.Proofs.Converter.Settled

namespace EmScale.Converter

variable {converter : Converter}

section Unmarked

variable (hmarker : converter.marker = [])
  (htarget : ∀ unit ∈ converter.units, unit.name ≠ targetUnit)

include hmarker htarget

/-- **After a run every declaration of the block is left as it is** in the block that the run
    made.  The nodes in `done` were dealt with before. -/
theorem allLeft_convertAll {around : Surroundings} :
    ∀ {nodes done : List Node}, converter.AllLeft around (done ++ nodes) done →
      let block := done ++ (converter.convertAll around done nodes).1
      converter.AllLeft around block block
  | [], done, h => by
    simpa [convertAll] using h
  | node :: rest, done, h => by
    have hstep := allLeft_step hmarker htarget h
    have hothers := allLeft_convertAll hstep
    rw [convertAll_cons]
    dsimp only at hothers ⊢
    rw [List.append_assoc] at hothers
    exact hothers

theorem isIdle_convertAll_convertAll_of {around : Surroundings} {nodes : List Node}
    (hinside : ∀ made ∈ (converter.convertAll around [] nodes).1,
      converter.IsIdleInside around made) :
    (converter.convertAll around [] (converter.convertAll around [] nodes).1).2.IsIdle := by
  have hnone : converter.AllLeft around nodes [] := fun _ hdecl => nomatch hdecl
  have hleft := allLeft_convertAll hmarker htarget hnone
  exact isIdle_convertAll_iff_allLeft.mpr ⟨hleft, hinside⟩

end Unmarked

mutual

theorem isIdleInside_convertNode (hmarker : converter.marker = [])
    (htarget : ∀ unit ∈ converter.units, unit.name ≠ targetUnit) :
    ∀ (node : Node) (around : Surroundings) (block : List Node),
      ∀ made ∈ (converter.convertNode around block node).1, converter.IsIdleInside around made
  | .rule head children, around, _, made, hmade => by
    have hinside := isIdleInside_convertAll hmarker htarget children (around.insideRule head) []
    rw [convertNode_rule] at hmade
    rw [List.mem_singleton.mp hmade]
    exact isIdle_convertAll_convertAll_of hmarker htarget hinside
  | .atBlock head children, around, _, made, hmade => by
    have hinside := isIdleInside_convertAll hmarker htarget children (around.insideAtRule head) []
    rw [convertNode_atBlock] at hmade
    rw [List.mem_singleton.mp hmade]
    constructor
    · exact isIdle_convertHead_convertHead hmarker htarget head
    · rw [insideAtRule_convertHead]
      exact isIdle_convertAll_convertAll_of hmarker htarget hinside
  | .atLine head, _, _, made, hmade => by
    rw [convertNode_atLine] at hmade
    rw [List.mem_singleton.mp hmade]
    exact isIdle_convertHead_convertHead hmarker htarget head
  | .declaration decl, _, _, made, hmade => by
    obtain ⟨other, rfl⟩ := exists_of_mem_convertNode_declaration hmade
    trivial
  | .comment note, _, _, made, hmade => by
    rw [List.mem_singleton.mp hmade]
    trivial

theorem isIdleInside_convertAll (hmarker : converter.marker = [])
    (htarget : ∀ unit ∈ converter.units, unit.name ≠ targetUnit) :
    ∀ (nodes : List Node) (around : Surroundings) (done : List Node),
      ∀ made ∈ (converter.convertAll around done nodes).1, converter.IsIdleInside around made
  | [], _, _, _, hmade => nomatch hmade
  | node :: rest, around, done, made, hmade => by
    rw [convertAll_cons] at hmade
    rcases List.mem_append.mp hmade with hmade | hmade
    · exact isIdleInside_convertNode hmarker htarget node around _ made hmade
    · exact isIdleInside_convertAll hmarker htarget rest around _ made hmade

end

section Unmarked

variable (hmarker : converter.marker = [])
  (htarget : ∀ unit ∈ converter.units, unit.name ≠ targetUnit)

include hmarker htarget

/-- **A second run over a block counts nothing.** -/
theorem isIdle_convertAll_convertAll (around : Surroundings) (nodes : List Node) :
    (converter.convertAll around [] (converter.convertAll around [] nodes).1).2.IsIdle :=
  isIdle_convertAll_convertAll_of hmarker htarget
    (isIdleInside_convertAll hmarker htarget nodes around [])

/-- **A tree that was converted stays as it is**, whether values are replaced or declarations
    are put behind others, and a second run reports no change. -/
theorem transform_idempotent (path : Option Text) (sheet : Stylesheet) :
    let once := (converter.transform path sheet).1
    let again := converter.transform path once
    again.1 = once ∧ again.2.tally.replaced = 0 ∧ again.2.tally.fallbacks = 0 ∧
      again.2.tally.mediaConverted = 0 := by
  intro once again
  cases hpath : converter.isExcluded path with
  | true =>
    have hagain : again = (once, { excluded := true }) := if_pos hpath
    rw [hagain]
    exact ⟨rfl, rfl, rfl, rfl⟩
  | false =>
    have honce : once = { sheet with nodes := (converter.convertAll {} [] sheet.nodes).1 } :=
      congrArg Prod.fst (transform_eq hpath sheet)
    have hidle := isIdle_convertAll_convertAll hmarker htarget {} sheet.nodes
    have hagain : again = _ := transform_eq hpath once
    rw [hagain, honce]
    dsimp only
    rw [convertAll_of_isIdle hidle]
    exact ⟨rfl, hidle⟩

end Unmarked

/-- The text of this tree does not stay as it is when it is read and converted once more: the
    open parenthesis takes in the declaration that was put behind it. -/
theorem transform_idempotent_open_parenthesis :
    let converter := ofOptions { replace := false, mediaQuery := true }
    let sheet : Stylesheet := { nodes := [
      .atBlock { name := "MEDIA".toList, params := "(a:5px)".toList } [
        .rule { selector := ['b'] } [
          .declaration { prop := ['c'], value := "7px".toList },
          .declaration { prop := ['c'], value := "(5px".toList }]]] }
    let once := (converter.transform none sheet).1
    let again := converter.transform none once
    (converter.marker = [] ∧ ∀ unit ∈ converter.units, unit.name ≠ targetUnit) ∧
      (converter.transform none sheet).2.tally = { fallbacks := 2, mediaConverted := 1 } ∧
        again.1 = once ∧ again.2.tally.replaced = 0 ∧ again.2.tally.fallbacks = 0 ∧
          again.2.tally.mediaConverted = 0 := by
  intro converter sheet once again
  have htarget : ∀ unit ∈ converter.units, unit.name ≠ targetUnit := by decide +kernel
  exact ⟨⟨rfl, htarget⟩, by decide +kernel, transform_idempotent rfl htarget none sheet⟩

end EmScale.Converter
