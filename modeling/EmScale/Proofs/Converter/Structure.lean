/-
  EmScale/Proofs/Converter/Structure.lean
  =======================================
  **Whether converting keeps the structure of a stylesheet.**

  Where values are replaced, a converted stylesheet is read again from its own text.  What is
  read is the same tree, but for one thing: a media query whose prelude stood directly behind
  its name, such as `@media.5px`, may get a prelude that starts with a digit, and the digit
  then belongs to the name.  So the structure is kept if and only if no name of an at-rule
  goes on (`Node.IsSeparated`).
-/
import EmScale.Proofs.Converter.Transform
import EmScale.Proofs.Sheet.Reread

namespace EmScale.Converter

variable {converter : Converter}

/-! ### Nothing is put behind a declaration -/

section Replacing

variable (hreplace : converter.options.replace = true)

include hreplace

theorem exists_convertNode_eq_singleton (around : Surroundings) (block : List Node)
    (node : Node) : ∃ made, (converter.convertNode around block node).1 = [made] := by
  rcases converter.convertNode_cases around block node with h | ⟨-, -, happend, -⟩
  · exact h
  · rw [hreplace] at happend
    cases happend

variable (hmarker : converter.marker = [])

include hmarker

/-- No block runs on that did not before. -/
theorem not_runsOn_convertAll {after : Text} {stop : Option Char} {semicolon : Bool} :
    ∀ {nodes : List Node} {closed : Bool}, Node.AllRead after stop semicolon closed nodes →
      ∀ (around : Surroundings) (done : List Node),
        ¬ Node.RunsOn semicolon (converter.convertAll around done nodes).1
  | [], _, _, _, _ => Node.not_runsOn_nil semicolon
  | [node], _, _, around, done => by
    obtain ⟨made, hmade⟩ := exists_convertNode_eq_singleton hreplace around (done ++ [node]) node
    rw [convertAll_cons]
    dsimp only
    rw [hmade]
    exact Node.not_runsOn_singleton semicolon made
  | node :: next :: rest, _, ⟨hnode, hrest⟩, around, done => by
    rw [Node.isClosed_of_ne_nil semicolon (List.cons_ne_nil next rest)] at hnode
    have hstops := stops_convertNode hmarker hnode around (done ++ node :: next :: rest)
    intro hruns
    exact not_runsOn_convertAll hrest around _ (hruns.of_append hstops)

end Replacing

mutual

theorem not_runsOn_of_mem_preorder (hreplace : converter.options.replace = true)
    (hmarker : converter.marker = []) {after : Text} {stop : Option Char} :
    ∀ {node : Node} {closed : Bool}, node.Reads after stop closed →
      ∀ (around : Surroundings) (block : List Node),
        ∀ inner ∈ Node.preorderAll (converter.convertNode around block node).1,
          ¬ Node.RunsOn inner.semicolon inner.children
  | .rule head children, _, ⟨_, hchildren⟩, around, _, inner, hinner => by
    rw [convertNode_rule] at hinner
    simp only [Node.preorderAll, Node.preorder, List.append_nil, List.mem_cons] at hinner
    rcases hinner with rfl | hinner
    · exact not_runsOn_convertAll hreplace hmarker hchildren _ _
    · exact not_runsOn_of_mem_preorderAll hreplace hmarker hchildren _ _ inner hinner
  | .atBlock head children, _, ⟨_, hchildren⟩, around, _, inner, hinner => by
    rw [convertNode_atBlock] at hinner
    simp only [Node.preorderAll, Node.preorder, List.append_nil, List.mem_cons] at hinner
    rcases hinner with rfl | hinner
    · rw [Node.semicolon, raws_convertHead]
      exact not_runsOn_convertAll hreplace hmarker hchildren _ _
    · exact not_runsOn_of_mem_preorderAll hreplace hmarker hchildren _ _ inner hinner
  | .atLine head, _, _, _, _, inner, hinner => by
    rw [convertNode_atLine] at hinner
    rw [List.mem_singleton.mp hinner]
    exact Node.not_runsOn_nil _
  | .declaration decl, _, _, around, block, inner, hinner => by
    obtain ⟨decl', rfl⟩ : ∃ decl', inner = .declaration decl' := by
      rcases converter.convertNode_declaration_cases around block decl with h | h | ⟨-, -, h⟩ <;>
        rw [h] at hinner <;> simp [Node.preorderAll, Node.preorder] at hinner
      · exact ⟨_, hinner⟩
      · exact ⟨_, hinner⟩
      · exact hinner.elim (fun h => ⟨_, h⟩) fun h => ⟨_, h⟩
    exact Node.not_runsOn_nil _
  | .comment note, _, _, _, _, inner, hinner => by
    rw [List.mem_singleton.mp hinner]
    exact Node.not_runsOn_nil _

theorem not_runsOn_of_mem_preorderAll (hreplace : converter.options.replace = true)
    (hmarker : converter.marker = []) {after : Text} {stop : Option Char} {semicolon : Bool} :
    ∀ {nodes : List Node} {closed : Bool}, Node.AllRead after stop semicolon closed nodes →
      ∀ (around : Surroundings) (done : List Node),
        ∀ inner ∈ Node.preorderAll (converter.convertAll around done nodes).1,
          ¬ Node.RunsOn inner.semicolon inner.children
  | [], _, _, _, _, inner, hinner => by
    cases hinner
  | node :: rest, _, ⟨hnode, hrest⟩, around, done, inner, hinner => by
    rw [convertAll_cons] at hinner
    dsimp only at hinner
    rw [Node.preorderAll_append, List.mem_append] at hinner
    rcases hinner with hinner | hinner
    · exact not_runsOn_of_mem_preorder hreplace hmarker hnode _ _ inner hinner
    · exact not_runsOn_of_mem_preorderAll hreplace hmarker hrest _ _ inner hinner

end

section Replaced

variable (hreplace : converter.options.replace = true) (hmarker : converter.marker = [])

include hreplace hmarker

theorem stands_transform {path : Option Text} (hpath : converter.isExcluded path = false)
    {plain : Stylesheet} (h : plain.Reads) : (converter.transform path plain).1.Stands := by
  have hfit := (allFit_rejoin_transform hmarker (stands_convertHead hmarker) hpath h).1
  have hsame : (converter.transform path plain).1.rejoin = (converter.transform path plain).1 := by
    rw [transform_eq hpath]
    exact Stylesheet.rejoin_eq_self (not_runsOn_convertAll hreplace hmarker h {} [])
      (not_runsOn_of_mem_preorderAll hreplace hmarker h {} [])
  rw [hsame] at hfit
  exact hfit

theorem exists_parse_print_transform {css : Text} {sheet : Stylesheet}
    (h : Stylesheet.parse css = .ok sheet) :
    ∃ again, Stylesheet.parse (converter.transform none sheet).1.print = .ok again ∧
      again.erase = (converter.transform none sheet).1.erase.reread ∧
        (converter.transform none sheet).1.erase.Stands := by
  obtain ⟨plain, hread, rfl⟩ := Stylesheet.parse_eq_ok_iff.mp h
  obtain ⟨-, hplain, hreads⟩ := Stylesheet.read_eq_ok_iff.mp hread
  have hstands := stands_transform hreplace hmarker converter.isExcluded_none hreads
  rw [transform_locate none hplain] at hstands
  have hagain := Stylesheet.read_print (Stylesheet.erase_erase _) hstands
  rw [Stylesheet.print_erase] at hagain
  refine ⟨_, Stylesheet.parse_eq_ok_iff.mpr ⟨_, hagain, rfl⟩, ?_, hstands⟩
  rw [Stylesheet.erase_locate]
  exact (Stylesheet.read_eq_ok_iff.mp hagain).2.1

/-- **Converting keeps the structure of a stylesheet if and only if every name of an at-rule
    still ends where it did.**  The text is read again in any case. -/
theorem parse_print_transform_iff {css : Text} {sheet : Stylesheet}
    (h : Stylesheet.parse css = .ok sheet) :
    ∃ again, Stylesheet.parse (converter.transform none sheet).1.print = .ok again ∧
      (again.erase = (converter.transform none sheet).1.erase ↔
        ∀ node ∈ (converter.transform none sheet).1.allNodes, node.IsSeparated) := by
  obtain ⟨again, hparse, hsame, hstands⟩ := exists_parse_print_transform hreplace hmarker h
  refine ⟨again, hparse, ?_⟩
  rw [hsame, Stylesheet.reread_eq_self_iff (Stylesheet.erase_erase _) hstands,
    Stylesheet.forall_isSeparated_erase]

end Replaced

theorem parse_print_transform_media :
    let converter := ofOptions { mediaQuery := true }
    ∃ sheet again, Stylesheet.parse "@media (a:5px)\x7bb\x7bc:5px\x7d\x7d".toList = .ok sheet ∧
      Stylesheet.parse (converter.transform none sheet).1.print = .ok again ∧
        again.erase = (converter.transform none sheet).1.erase := by
  intro converter
  have hread : Stylesheet.read "@media (a:5px)\x7bb\x7bc:5px\x7d\x7d".toList = .ok {
      nodes := [.atBlock { name := "media".toList, params := "(a:5px)".toList, afterName := [' '] }
        [.rule { selector := ['b'] }
          [.declaration { prop := ['c'], value := "5px".toList, between := [':'] }]]] } := by
    cbv
  have hparse := Stylesheet.parse_eq_ok_iff.mpr ⟨_, hread, rfl⟩
  obtain ⟨again, hagain, hsame⟩ := @parse_print_transform_iff converter rfl rfl _ _ hparse
  refine ⟨_, again, hparse, hagain, hsame.mpr ?_⟩
  decide +kernel

/-- The prelude `.5px` becomes `0.005em`, and its first digit belongs to the name then. -/
theorem not_erase_eq_of_glued_prelude :
    let converter := ofOptions { mediaQuery := true }
    (converter.options.replace = true ∧ converter.marker = []) ∧
      ∃ sheet, Stylesheet.parse "@media.5px{}".toList = .ok sheet ∧
        ¬ ∃ again, Stylesheet.parse (converter.transform none sheet).1.print = .ok again ∧
          again.erase = (converter.transform none sheet).1.erase := by
  intro converter
  have hread : Stylesheet.read "@media.5px{}".toList =
      .ok { nodes := [.atBlock { name := "media".toList, params := ".5px".toList } []] } := by
    cbv
  have hparse := Stylesheet.parse_eq_ok_iff.mpr ⟨_, hread, rfl⟩
  refine ⟨⟨rfl, rfl⟩, _, hparse, ?_⟩
  rintro ⟨again, hagain, hsame⟩
  obtain ⟨other, hother, hreread, hstands⟩ :=
    @exists_parse_print_transform converter rfl rfl _ _ hparse
  cases hagain.symm.trans hother
  have hseparated := (Stylesheet.reread_eq_self_iff (Stylesheet.erase_erase _) hstands).mp
    (hreread.symm.trans hsame)
  exact absurd hseparated (by decide +kernel)

end EmScale.Converter
