/-
  EmScale/Proofs/Converter/Duplicates.lean
  ========================================
  **What comes of declarations that a block has already.**

  A declaration is converted only if the block does not declare the converted value.  So no
  declaration comes to stand in a block that has it already
  (`Converter.count_declares_transform_le`).

  The converse would be that a declaration which is left for that reason has its converted
  value declared in the end.  This holds unless what declares the value stands further behind
  and is converted itself, which can only happen if there is something left to convert in a
  converted value.  `Converter.IsLost` says exactly when the value is declared no more, which
  it always is where nothing is left to convert (`Converter.declares_transform_iff`).
-/
import EmScale.Proofs.Converter.Block
import EmScale.Proofs.Converter.Concat
import EmScale.Proofs.Converter.Rescan

namespace EmScale.Converter

variable {converter : Converter} {around : Surroundings} {prop value : Text}

/-! ### What a step declares -/

/-- The decision on a declaration asks for the declaration of `value` for `prop`. -/
def AsksFor (converter : Converter) (around : Surroundings) (prop value : Text)
    (decl : Declaration) : Prop :=
  decl.prop = prop ∧ (converter.decide (around.contextOf decl) = .replace value ∨
    converter.decide (around.contextOf decl) = .append value)

instance (decl : Declaration) : Decidable (converter.AsksFor around prop value decl) := by
  unfold AsksFor; infer_instance

theorem asksFor_iff {decl : Declaration} :
    converter.AsksFor around prop value decl ↔
      decl.prop = prop ∧ converter.decide (around.contextOf decl) ≠ .keep ∧
        converter.convertValue decl.value = value := by
  apply and_congr_right
  intro _
  constructor
  · intro h
    have hkeep : converter.decide (around.contextOf decl) ≠ .keep := by
      rcases h with h | h <;> simp [h]
    refine ⟨hkeep, ?_⟩
    have hdecide := (decide_eq_of_ne_keep hkeep).2
    cases hreplace : converter.options.replace <;>
      simp_all [Surroundings.contextOf]
  · rintro ⟨hkeep, rfl⟩
    have hdecide := (decide_eq_of_ne_keep hkeep).2
    cases hreplace : converter.options.replace <;>
      simp_all [Surroundings.contextOf]

theorem AsksFor.value_ne {decl : Declaration} (h : converter.AsksFor around prop value decl) :
    decl.value ≠ value := by
  obtain ⟨-, hkeep, rfl⟩ := asksFor_iff.mp h
  exact (decide_eq_of_ne_keep hkeep).1.symm

theorem declares_declaration {decl : Declaration} :
    (Node.declaration decl).declares prop value = true ↔
      decl.prop = prop ∧ decl.value = value := by
  simp [Node.declares]

theorem declares_declaration_eq_false {decl : Declaration} (h : decl.value ≠ value) :
    (Node.declaration decl).declares prop value = false := by
  rw [← Bool.not_eq_true, declares_declaration]
  exact fun hdeclares => h hdeclares.2

theorem exists_of_declares {node : Node} (h : node.declares prop value = true) :
    ∃ decl, node = .declaration decl := by
  cases node with
  | declaration decl => exact ⟨decl, rfl⟩
  | _ => cases h

theorem exists_first_declares {nodes : List Node}
    (h : nodes.any (Node.declares prop value) = true) :
    ∃ front decl rest, nodes = front ++ .declaration decl :: rest ∧
      (Node.declaration decl).declares prop value = true ∧
        front.any (Node.declares prop value) = false := by
  have hsome := List.find?_isSome.mpr (List.any_eq_true.mp h)
  obtain ⟨node, hfind⟩ := Option.isSome_iff_exists.mp hsome
  obtain ⟨hnode, front, rest, rfl, hfront⟩ := List.find?_eq_some_iff_append.mp hfind
  obtain ⟨decl, rfl⟩ := exists_of_declares hnode
  exact ⟨front, decl, rest, rfl, hnode, by simpa using hfront⟩

theorem not_leaves_iff {block : List Node} {decl : Declaration} :
    ¬ converter.Leaves around block decl ↔
      converter.decide (around.contextOf decl) ≠ .keep ∧
        block.any (Node.declares decl.prop (converter.convertValue decl.value)) = false := by
  rw [Leaves, not_or, Bool.not_eq_true]

/-- **What stands in the place of a node declares a value** if the node does and is not
    replaced, or if it asks for the value and the block does not declare it. -/
theorem any_declares_convertNode_iff {block : List Node} {node : Node} :
    (converter.convertNode around block node).1.any (Node.declares prop value) = true ↔
      ∃ decl, node = .declaration decl ∧
        (node.declares prop value = true ∧
            (converter.options.replace = true → converter.Leaves around block decl) ∨
          converter.AsksFor around prop value decl ∧
            block.any (Node.declares prop value) = false) := by
  cases node with
  | declaration decl =>
    by_cases hleaves : converter.Leaves around block decl
    · have hasks : ¬ (converter.AsksFor around prop value decl ∧
          block.any (Node.declares prop value) = false) := by
        rintro ⟨hasks, hdeclared⟩
        obtain ⟨rfl, hkeep, rfl⟩ := asksFor_iff.mp hasks
        exact not_leaves_iff.mpr ⟨hkeep, hdeclared⟩ hleaves
      rw [(convertNode_of_leaves hleaves).1]
      simp only [List.any_cons, List.any_nil, Bool.or_false, Node.declaration.injEq,
        exists_eq_left', hleaves, implies_true, and_true, hasks, or_false]
    · have hmade := (convertNode_of_not_leaves hleaves).1
      obtain ⟨hkeep, hdeclared⟩ := not_leaves_iff.mp hleaves
      have hconverted : (Node.declaration (converter.converted decl)).declares prop value = true ↔
          converter.AsksFor around prop value decl ∧
            block.any (Node.declares prop value) = false := by
        rw [declares_declaration, asksFor_iff]
        constructor
        · rintro ⟨rfl, rfl⟩
          exact ⟨⟨rfl, hkeep, rfl⟩, hdeclared⟩
        · rintro ⟨⟨rfl, -, rfl⟩, -⟩
          exact ⟨rfl, rfl⟩
      rw [hmade]
      simp only [Node.declaration.injEq, exists_eq_left', hleaves, ← hconverted]
      cases converter.options.replace <;> simp
  | _ =>
    simp [convertNode_rule, convertNode_atBlock, convertNode_atLine, convertNode_comment,
      Node.declares]

/-! ### Nothing is declared twice -/

/-- What stands in the place of a node declares a value no more often than the node, or once
    and the block does not. -/
theorem countP_declares_convertNode (converter : Converter) (around : Surroundings)
    (prop value : Text) (block : List Node) (node : Node) :
    let made := (converter.convertNode around block node).1
    made.countP (Node.declares prop value) ≤ [node].countP (Node.declares prop value) ∨
      made.countP (Node.declares prop value) = 1 ∧
        block.any (Node.declares prop value) = false := by
  intro made
  cases node with
  | declaration decl =>
    by_cases hleaves : converter.Leaves around block decl
    · left
      rw [show made = [.declaration decl] from (convertNode_of_leaves hleaves).1]
    · obtain ⟨hkeep, hdeclared⟩ := not_leaves_iff.mp hleaves
      have hvalue : converter.convertValue decl.value ≠ decl.value := (decide_eq_of_ne_keep hkeep).1
      rw [show made = _ from (convertNode_of_not_leaves hleaves).1]
      by_cases hnew : (Node.declaration (converter.converted decl)).declares prop value = true
      · right
        obtain ⟨hprop, hconverted⟩ := declares_declaration.mp hnew
        have hold : (Node.declaration decl).declares prop value = false := by
          apply declares_declaration_eq_false
          intro hsame
          exact hvalue (hconverted.trans hsame.symm)
        constructor
        · cases converter.options.replace <;> simp [hold, hnew]
        · rw [← hprop, ← hconverted]
          exact hdeclared
      · left
        cases converter.options.replace <;> simp [List.countP_cons, hnew]
  | _ =>
    left
    simp [made, convertNode_rule, convertNode_atBlock, convertNode_atLine, convertNode_comment,
      Node.declares]

/-- **No declaration comes to stand in a block that has it already.** -/
theorem countP_declares_blockAfter_le (nodes done : List Node) :
    (converter.blockAfter around done nodes).countP (Node.declares prop value) ≤
      max 1 ((done ++ nodes).countP (Node.declares prop value)) := by
  induction nodes generalizing done with
  | nil =>
    rw [blockAfter_nil, List.append_nil]
    exact Nat.le_max_right _ _
  | cons node rest ih =>
    rw [blockAfter_cons]
    apply (ih _).trans
    apply Nat.max_le.mpr
    refine ⟨Nat.le_max_left _ _, ?_⟩
    have hblock : done ++ node :: rest = done ++ [node] ++ rest := by simp
    rw [hblock, List.countP_append, List.countP_append, List.countP_append, List.countP_append]
    rcases countP_declares_convertNode converter around prop value (done ++ [node] ++ rest) node with
      hmade | ⟨hmade, hfresh⟩
    · apply le_max_of_le_right
      omega
    · rw [List.any_append, List.any_append, Bool.or_eq_false_iff, Bool.or_eq_false_iff] at hfresh
      obtain ⟨⟨hdone, -⟩, hrest⟩ := hfresh
      have hdone := List.countP_eq_zero.mpr (List.any_eq_false.mp hdone)
      have hrest := List.countP_eq_zero.mpr (List.any_eq_false.mp hrest)
      apply le_max_of_le_left
      omega

/-- **Converting never makes a duplicate**: no block of the converted tree has a declaration
    more often than the block of the tree that it comes from, but for one that is new. -/
theorem count_declares_transform_le (converter : Converter) (path : Option Text)
    (sheet : Stylesheet) :
    List.Forall₂
      (fun old new => new.around = old.around ∧ ∀ prop value,
        new.nodes.countP (Node.declares prop value) ≤
          max 1 (old.nodes.countP (Node.declares prop value)))
      sheet.blocks (converter.transform path sheet).1.blocks := by
  cases hpath : converter.isExcluded path with
  | true =>
    rw [transform, if_pos hpath, List.forall₂_same]
    intro block _
    exact ⟨rfl, fun prop value => Nat.le_max_right _ _⟩
  | false =>
    apply forall₂_blocks_transform hpath
    intro block
    exact ⟨rfl, fun prop value => countP_declares_blockAfter_le block.nodes []⟩

/-! ### What a run declares in the end -/

section Run

/-- What stands in front is there in the end. -/
theorem any_declares_blockAfter_of_done {done : List Node}
    (h : done.any (Node.declares prop value) = true) (nodes : List Node) :
    (converter.blockAfter around done nodes).any (Node.declares prop value) = true := by
  rw [blockAfter, List.any_append, h, Bool.true_or]

/-- Where values are not replaced, what is declared stays declared. -/
theorem any_declares_blockAfter_of_append (hreplace : converter.options.replace = false)
    {nodes : List Node} (h : nodes.any (Node.declares prop value) = true) (done : List Node) :
    (converter.blockAfter around done nodes).any (Node.declares prop value) = true := by
  induction nodes generalizing done with
  | nil => cases h
  | cons node rest ih =>
    rw [blockAfter_cons]
    by_cases hnode : node.declares prop value = true
    · apply any_declares_blockAfter_of_done
      obtain ⟨decl, rfl⟩ := exists_of_declares hnode
      rw [List.any_append, any_declares_convertNode_iff.mpr, Bool.or_true]
      exact ⟨decl, rfl, Or.inl ⟨hnode, by simp [hreplace]⟩⟩
    · apply ih
      simpa [hnode] using h

/-- As long as the value is declared behind, no node in front that does not declare it comes
    to do so. -/
theorem any_declares_madeBefore_eq_false {rest : List Node}
    (hrest : rest.any (Node.declares prop value) = true) {front : List Node}
    (hfront : front.any (Node.declares prop value) = false) {done : List Node}
    (hdone : done.any (Node.declares prop value) = false) :
    (converter.madeBefore around rest done front).any (Node.declares prop value) = false := by
  induction front generalizing done with
  | nil => exact hdone
  | cons node front ih =>
    rw [List.any_cons, Bool.or_eq_false_iff] at hfront
    obtain ⟨hnode, hfront⟩ := hfront
    apply ih hfront
    rw [List.any_append, hdone, Bool.false_or, ← Bool.not_eq_true, any_declares_convertNode_iff]
    rintro ⟨decl, -, ⟨hdeclares, -⟩ | ⟨-, hfresh⟩⟩
    · rw [hnode] at hdeclares
      cases hdeclares
    · simp [hrest] at hfresh

/-- A value that no node declares is declared in the end if some node asks for it. -/
theorem any_declares_blockAfter_iff_asksFor {nodes : List Node}
    (hnodes : nodes.any (Node.declares prop value) = false) {done : List Node}
    (hdone : done.any (Node.declares prop value) = false) :
    (converter.blockAfter around done nodes).any (Node.declares prop value) = true ↔
      ∃ decl, .declaration decl ∈ nodes ∧ converter.AsksFor around prop value decl := by
  induction nodes generalizing done with
  | nil => simp [blockAfter_nil, hdone]
  | cons node rest ih =>
    have hblock : (done ++ node :: rest).any (Node.declares prop value) = false := by
      rw [List.any_append, hdone, hnodes, Bool.false_or]
    rw [List.any_cons, Bool.or_eq_false_iff] at hnodes
    obtain ⟨hnode, hrest⟩ := hnodes
    have hmade : (converter.convertNode around (done ++ node :: rest) node).1.any
        (Node.declares prop value) = true ↔
          ∃ decl, node = .declaration decl ∧ converter.AsksFor around prop value decl := by
      rw [any_declares_convertNode_iff]
      simp [hnode, hblock]
    rw [blockAfter_cons]
    by_cases hasks : ∃ decl, node = .declaration decl ∧ converter.AsksFor around prop value decl
    · have hin := hmade.mpr hasks
      obtain ⟨decl, rfl, hdecl⟩ := hasks
      apply iff_of_true
      · apply any_declares_blockAfter_of_done
        rw [List.any_append, hin, Bool.or_true]
      · exact ⟨decl, List.mem_cons_self, hdecl⟩
    · have hout := Bool.not_eq_true _ ▸ mt hmade.mp hasks
      rw [ih hrest (by rw [List.any_append, hdone, hout, Bool.false_or])]
      constructor
      · rintro ⟨decl, hdecl, h⟩
        exact ⟨decl, List.mem_cons_of_mem _ hdecl, h⟩
      · rintro ⟨decl, hdecl, h⟩
        rcases List.mem_cons.mp hdecl with hsame | hdecl
        · exact absurd ⟨decl, hsame.symm, h⟩ hasks
        · exact ⟨decl, hdecl, h⟩

/-- A value stays declared behind the declaration of what it is converted to. -/
theorem any_declares_blockAfter_of_converted {nodes : List Node}
    (hnodes : nodes.any (Node.declares prop value) = true) {done : List Node}
    (hdone : done.any (Node.declares prop (converter.convertValue value)) = true) :
    (converter.blockAfter around done nodes).any (Node.declares prop value) = true := by
  induction nodes generalizing done with
  | nil => cases hnodes
  | cons node rest ih =>
    rw [blockAfter_cons]
    by_cases hnode : node.declares prop value = true
    · apply any_declares_blockAfter_of_done
      obtain ⟨decl, rfl⟩ := exists_of_declares hnode
      obtain ⟨rfl, rfl⟩ := declares_declaration.mp hnode
      have hleaves : converter.Leaves around (done ++ .declaration decl :: rest) decl := by
        right
        rw [List.any_append, hdone, Bool.true_or]
      rw [(convertNode_of_leaves hleaves).1, List.any_append, List.any_cons, hnode, Bool.true_or,
        Bool.or_true]
    · apply ih
      · simpa [hnode] using hnodes
      · rw [List.any_append, hdone, Bool.true_or]

end Run

/-! ### What is lost -/

/-- The value that the declaration `decl`, between `front` and `rest`, asks for is declared no
    more in the end: when the run comes to `decl` the value is declared behind it alone, by one
    declaration, which is replaced when the run comes to it; and nothing behind that one asks
    for the value. -/
structure IsLost (converter : Converter) (around : Surroundings) (front : List Node)
    (decl : Declaration) (rest : List Node) (value : Text) : Prop where
  replaces : converter.options.replace = true
  missing : (converter.madeBefore around (.declaration decl :: rest) [] front).any
    (Node.declares decl.prop value) = false
  twin : ∃ between twin behind, rest = between ++ .declaration twin :: behind ∧
    between.any (Node.declares decl.prop value) = false ∧
    (Node.declaration twin).declares decl.prop value = true ∧
    behind.any (Node.declares decl.prop value) = false ∧
    ¬ converter.Leaves around
      (converter.madeBefore around (.declaration twin :: behind) []
        (front ++ .declaration decl :: between) ++ .declaration twin :: behind) twin ∧
    ∀ other, .declaration other ∈ behind → ¬ converter.AsksFor around decl.prop value other

section Lost

variable {decl twin : Declaration} {front rest between behind : List Node}

/-- Where the first declaration of a value stands in front of the run, the value is declared
    in the end if that declaration stays, or another one behind it, or if something behind it
    asks for the value. -/
theorem any_declares_blockAfter_twin_iff (hreplace : converter.options.replace = true)
    {done : List Node} (hdone : done.any (Node.declares prop value) = false)
    (hbetween : between.any (Node.declares prop value) = false)
    (htwin : (Node.declaration twin).declares prop value = true) :
    (converter.blockAfter around done (between ++ .declaration twin :: behind)).any
        (Node.declares prop value) = true ↔
      converter.Leaves around
          (converter.madeBefore around (.declaration twin :: behind) done between ++
            .declaration twin :: behind) twin ∨
        behind.any (Node.declares prop value) = true ∨
        ∃ other, .declaration other ∈ behind ∧ converter.AsksFor around prop value other := by
  have hmade : (converter.madeBefore around (.declaration twin :: behind) done between).any
      (Node.declares prop value) = false :=
    any_declares_madeBefore_eq_false (by simp [htwin]) hbetween hdone
  rw [blockAfter_append, blockAfter_cons]
  generalize converter.madeBefore around (.declaration twin :: behind) done between = made at *
  by_cases hleaves : converter.Leaves around (made ++ .declaration twin :: behind) twin
  · apply iff_of_true
    · apply any_declares_blockAfter_of_done
      rw [(convertNode_of_leaves hleaves).1, List.any_append, List.any_cons, htwin, Bool.true_or,
        Bool.or_true]
    · exact Or.inl hleaves
  · have hvalue : converter.convertValue twin.value ≠ twin.value :=
      (decide_eq_of_ne_keep (not_leaves_iff.mp hleaves).1).1
    obtain ⟨rfl, rfl⟩ := declares_declaration.mp htwin
    have hnew : (Node.declaration (converter.converted twin)).declares twin.prop twin.value =
        false := declares_declaration_eq_false hvalue
    rw [(convertNode_of_not_leaves hleaves).1, if_pos hreplace, or_iff_right hleaves]
    by_cases hbehind : behind.any (Node.declares twin.prop twin.value) = true
    · refine iff_of_true ?_ (Or.inl hbehind)
      apply any_declares_blockAfter_of_converted hbehind
      simp [Node.declares, converted, Declaration.withValue]
    · rw [or_iff_right hbehind]
      apply any_declares_blockAfter_iff_asksFor (Bool.not_eq_true _ ▸ hbehind)
      simp [hmade, hnew]

/-- A declaration whose converted value stands behind it is left, and the value is declared in
    the end unless it is lost. -/
theorem any_declares_blockAfter_iff_of_behind (hreplace : converter.options.replace = true)
    (hasks : converter.AsksFor around prop value decl)
    (hmissing : (converter.madeBefore around (.declaration decl :: rest) [] front).any
      (Node.declares prop value) = false)
    (hrest : rest.any (Node.declares prop value) = true) :
    (converter.blockAfter around [] (front ++ .declaration decl :: rest)).any
        (Node.declares prop value) = true ↔
      ¬ converter.IsLost around front decl rest value := by
  have hself : (Node.declaration decl).declares prop value = false :=
    declares_declaration_eq_false hasks.value_ne
  obtain ⟨rfl, -, hvalue⟩ := asksFor_iff.mp hasks
  have hleaves : converter.Leaves around
      (converter.madeBefore around (.declaration decl :: rest) [] front ++ .declaration decl :: rest)
      decl := by
    right
    rw [hvalue, List.any_append, List.any_cons, hrest, Bool.or_true, Bool.or_true]
  -- The run leaves the declaration, so it comes to what is behind with one more node in front.
  have hdone : ∀ {between : List Node} {twin : Node} {behind : List Node},
      rest = between ++ twin :: behind →
      converter.madeBefore around (twin :: behind) [] (front ++ .declaration decl :: between) =
        converter.madeBefore around (twin :: behind)
          (converter.madeBefore around (.declaration decl :: rest) [] front ++ [.declaration decl])
          between := by
    intro between twin behind hsplit
    subst hsplit
    rw [madeBefore_append, madeBefore, List.cons_append, (convertNode_of_leaves hleaves).1]
  have hfresh : (converter.madeBefore around (.declaration decl :: rest) [] front ++
      [Node.declaration decl]).any (Node.declares decl.prop value) = false := by
    rw [List.any_append, hmissing, List.any_cons, hself, List.any_nil]
    rfl
  rw [blockAfter_append, blockAfter_cons, (convertNode_of_leaves hleaves).1]
  constructor
  · rintro hdeclared ⟨-, -, between, twin, behind, rfl, hbetween, htwin, hbehind, hreplaced, hnone⟩
    rw [any_declares_blockAfter_twin_iff hreplace hfresh hbetween htwin] at hdeclared
    rcases hdeclared with hstays | hlater | ⟨other, hother, hagain⟩
    · exact hreplaced (hdone rfl ▸ hstays)
    · rw [hbehind] at hlater
      cases hlater
    · exact hnone other hother hagain
  · intro hkept
    by_contra hlost
    apply hkept
    obtain ⟨between, twin, behind, rfl, htwin, hbetween⟩ := exists_first_declares hrest
    rw [any_declares_blockAfter_twin_iff hreplace hfresh hbetween htwin, not_or, not_or] at hlost
    obtain ⟨hreplaced, hbehind, hnone⟩ := hlost
    refine ⟨hreplace, hmissing, between, twin, behind, rfl, hbetween, htwin,
      Bool.not_eq_true _ ▸ hbehind, ?_, ?_⟩
    · rw [hdone rfl]
      exact hreplaced
    · intro other hother hagain
      exact hnone ⟨other, hother, hagain⟩

/-- **A value that is asked for is declared in the end unless it is lost.** -/
theorem any_declares_blockAfter_iff (hasks : converter.AsksFor around prop value decl) :
    (converter.blockAfter around [] (front ++ .declaration decl :: rest)).any
        (Node.declares prop value) = true ↔
      ¬ converter.IsLost around front decl rest value := by
  obtain rfl := hasks.1
  have hself : (Node.declaration decl).declares decl.prop value = false :=
    declares_declaration_eq_false hasks.value_ne
  by_cases hmissing : (converter.madeBefore around (.declaration decl :: rest) [] front).any
      (Node.declares decl.prop value) = true
  · apply iff_of_true
    · rw [blockAfter_append]
      exact any_declares_blockAfter_of_done hmissing _
    · intro hlost
      rw [hlost.missing] at hmissing
      cases hmissing
  rw [Bool.not_eq_true] at hmissing
  by_cases hrest : rest.any (Node.declares decl.prop value) = true
  · cases hreplace : converter.options.replace with
    | true => exact any_declares_blockAfter_iff_of_behind hreplace hasks hmissing hrest
    | false =>
      apply iff_of_true
      · exact any_declares_blockAfter_of_append hreplace (by simp [hrest]) []
      · intro hlost
        rw [hlost.replaces] at hreplace
        cases hreplace
  · rw [Bool.not_eq_true] at hrest
    apply iff_of_true
    · rw [blockAfter_append, blockAfter_cons]
      apply any_declares_blockAfter_of_done
      rw [List.any_append, any_declares_convertNode_iff.mpr, Bool.or_true]
      refine ⟨decl, rfl, Or.inr ⟨hasks, ?_⟩⟩
      rw [List.any_append, hmissing, List.any_cons, hself, hrest]
      rfl
    · rintro ⟨-, -, between, twin, behind, rfl, -, htwin, -⟩
      simp [htwin] at hrest

/-- Only a value that is converted once more is lost. -/
theorem IsLost.decide_ne_keep (h : converter.IsLost around front decl rest value) :
    converter.decide (around.contextOf (decl.withValue value)) ≠ .keep := by
  obtain ⟨-, -, between, twin, behind, -, -, htwin, -, hreplaced, -⟩ := h
  obtain ⟨hprop, hvalue⟩ := declares_declaration.mp htwin
  have hcontext : around.contextOf (decl.withValue value) = around.contextOf twin := by
    rw [Surroundings.contextOf, Surroundings.contextOf, hprop, hvalue]
    rfl
  rw [hcontext]
  exact (not_leaves_iff.mp hreplaced).1

/-- Where numbers are not marked and no unit is that of the output, nothing is lost: a
    converted value has nothing left to convert. -/
theorem not_isLost_of_unmarked (hmarker : converter.marker = [])
    (htarget : ∀ unit ∈ converter.units, unit.name ≠ targetUnit)
    (hasks : converter.AsksFor around decl.prop value decl) :
    ¬ converter.IsLost around front decl rest value := by
  intro hlost
  obtain ⟨-, -, rfl⟩ := asksFor_iff.mp hasks
  apply (decide_eq_of_ne_keep hlost.decide_ne_keep).1
  exact convertValue_convertValue hmarker htarget decl.value

end Lost

/-- **A declaration that is not kept has its converted value declared in the converted block**,
    be it by itself, behind it or elsewhere, unless the value is lost.  None is lost where numbers
    are not marked and no unit is that of the output. -/
theorem declares_transform_iff {path : Option Text} (hpath : converter.isExcluded path = false)
    (sheet : Stylesheet) :
    List.Forall₂
      (fun old new => ∀ front decl rest value, old.nodes = front ++ .declaration decl :: rest →
        converter.AsksFor old.around decl.prop value decl →
          (new.nodes.any (Node.declares decl.prop value) = true ↔
            ¬ converter.IsLost old.around front decl rest value) ∧
          (converter.marker = [] → (∀ unit ∈ converter.units, unit.name ≠ targetUnit) →
            ¬ converter.IsLost old.around front decl rest value))
      sheet.blocks (converter.transform path sheet).1.blocks := by
  apply forall₂_blocks_transform hpath
  intro block front decl rest value hblock hasks
  rw [convertBlock, hblock]
  exact ⟨any_declares_blockAfter_iff hasks,
    fun hmarker htarget => not_isLost_of_unmarked hmarker htarget hasks⟩

/-- The second declaration is replaced, but the third asks for what it declared. -/
theorem declares_transform_of_third :
    let converter := ofOptions { ignoreIdentifier := some "00".toList }
    let marked : Declaration := { prop := ['p'], value := "00.5px".toList }
    let plain : Declaration := { prop := ['p'], value := ".5px".toList }
    let sheet : Stylesheet := { nodes := [
      .rule { selector := ['a'] } [.declaration marked, .declaration plain, .declaration marked]] }
    converter.isExcluded none = false ∧
      converter.AsksFor { selector := some ['a'] } ['p'] ".5px".toList marked ∧
        ∃ outer inner, (converter.transform none sheet).1.blocks = [outer, inner] ∧
          inner.nodes.any (Node.declares ['p'] ".5px".toList) = true := by
  intro converter marked plain sheet
  have hasks : converter.AsksFor { selector := some ['a'] } ['p'] ".5px".toList marked := by
    decide +kernel
  have hblocks := declares_transform_iff converter.isExcluded_none sheet
  obtain ⟨outer, others, -, hinner, hnew⟩ := List.forall₂_cons_left_iff.mp hblocks
  obtain ⟨inner, none, hiff, hnone, rfl⟩ := List.forall₂_cons_left_iff.mp hinner
  obtain rfl := List.forall₂_nil_left_iff.mp hnone
  refine ⟨converter.isExcluded_none, hasks, outer, inner, hnew, ?_⟩
  apply (hiff [] marked [.declaration plain, .declaration marked] _ rfl hasks).1.mpr
  rintro ⟨-, -, between, twin, behind, hrest, hbetween, -, -, -, hagain⟩
  cases between with
  | nil =>
    cases hrest
    exact hagain marked (List.mem_singleton.mpr rfl) hasks
  | cons node between =>
    obtain ⟨rfl, -⟩ := List.cons.inj hrest
    rw [List.any_cons, Bool.or_eq_false_iff] at hbetween
    exact absurd hbetween.1 (by decide)

/-- The second declaration is the one that the first is left for, and is replaced. -/
theorem not_declares_of_replaced_twin :
    let converter := ofOptions { ignoreIdentifier := some "00".toList }
    let marked : Declaration := { prop := ['p'], value := "00.5px".toList }
    let sheet : Stylesheet := { nodes := [
      .rule { selector := ['a'] } [
        .declaration marked, .declaration { prop := ['p'], value := ".5px".toList }]] }
    converter.isExcluded none = false ∧
      converter.decide (Surroundings.contextOf { selector := some ['a'] } marked) =
        .replace ".5px".toList ∧
      (converter.transform none sheet).1.print = "a\x7bp: 00.5px;p: 0.005em\x7d".toList ∧
      ¬ List.Forall₂
        (fun old new => ∀ decl value, .declaration decl ∈ old.nodes →
          converter.AsksFor old.around decl.prop value decl →
            new.nodes.any (Node.declares decl.prop value) = true)
        sheet.blocks (converter.transform none sheet).1.blocks := by
  intro converter marked sheet
  have hdecide : converter.decide (Surroundings.contextOf { selector := some ['a'] } marked) =
      .replace ".5px".toList := by
    decide +kernel
  have hnone : ∀ block ∈ (converter.transform none sheet).1.blocks,
      block.nodes.any (Node.declares ['p'] ".5px".toList) = false := by
    decide +kernel
  refine ⟨converter.isExcluded_none, hdecide, by decide +kernel, ?_⟩
  intro hblocks
  obtain ⟨outer, others, -, hinner, hnew⟩ := List.forall₂_cons_left_iff.mp hblocks
  obtain ⟨inner, none, hrule, -, rfl⟩ := List.forall₂_cons_left_iff.mp hinner
  have hdeclared := hrule marked _ List.mem_cons_self ⟨rfl, Or.inl hdecide⟩
  rw [hnone inner (by simp [hnew])] at hdeclared
  cases hdeclared

end EmScale.Converter
