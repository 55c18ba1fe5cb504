/-
  EmScale/Proofs/Converter/Blacklist.lean
  =======================================
  **How far a listed selector reaches.**

  The selector that counts for a declaration is that of the rule directly around it.  So the
  declarations of a block whose selector is listed stay as they are, and a rule or an at-rule
  inside of that block is converted like any other.  All that is inside stays as it is if and
  only if every declaration there would be left anyway
  (`Converter.declarations_transform_of_blacklisted`).

  The invariant is that of a run through one block: what it makes has the same declarations
  if and only if it leaves each of them (`Converter.declarations_convertAll_iff`).
-/
import EmScale.Proofs.Converter.Block
import EmScale.Proofs.Converter.Concat
import EmScale.Proofs.Converter.Settled

namespace EmScale

namespace Node

/-- The declarations among the nodes. -/
def declarations (nodes : List Node) : List Declaration :=
  nodes.filterMap Node.declaration?

theorem declarations_nil : declarations [] = [] := rfl

theorem declarations_append (a b : List Node) :
    declarations (a ++ b) = declarations a ++ declarations b :=
  List.filterMap_append

theorem declarations_cons_declaration (decl : Declaration) (rest : List Node) :
    declarations (.declaration decl :: rest) = decl :: declarations rest := rfl

theorem declarations_cons_of_none {node : Node} (h : node.declaration? = none)
    (rest : List Node) : declarations (node :: rest) = declarations rest :=
  List.filterMap_cons_none h

end Node

/-- The declarations that stand directly in a block. -/
def Block.declarations (block : Block) : List Declaration :=
  Node.declarations block.nodes

namespace Converter

variable {converter : Converter} {around : Surroundings}

/-! ### Blocks with the same declarations -/

theorem declarations_convertAll_cons (node : Node) (done rest : List Node) :
    Node.declarations (converter.convertAll around done (node :: rest)).1 =
      Node.declarations (converter.convertNode around (done ++ node :: rest) node).1 ++
        Node.declarations (converter.convertAll around
          (done ++ (converter.convertNode around (done ++ node :: rest) node).1) rest).1 := by
  rw [convertAll_cons, ← Node.declarations_append]

/-- A run does not drop declarations. -/
theorem length_declarations_convertAll (converter : Converter) (around : Surroundings)
    (nodes done : List Node) :
    (Node.declarations nodes).length ≤
      (Node.declarations (converter.convertAll around done nodes).1).length := by
  induction nodes generalizing done with
  | nil => exact Nat.zero_le _
  | cons node rest ih =>
    have hnode : (Node.declarations [node]).length ≤
        (Node.declarations (converter.convertNode around (done ++ node :: rest) node).1).length := by
      cases node with
      | declaration decl =>
        rcases converter.convertNode_declaration_cases around (done ++ .declaration decl :: rest)
          decl with h | h | ⟨-, -, h⟩ <;> rw [h] <;> exact Nat.le_add_left _ _
      | _ => exact Nat.zero_le _
    have hrest := ih (done ++ (converter.convertNode around (done ++ node :: rest) node).1)
    rw [declarations_convertAll_cons, ← List.singleton_append, Node.declarations_append,
      List.length_append, List.length_append]
    exact Nat.add_le_add hnode hrest

/-- A run that does not leave the first declaration makes other declarations. -/
theorem declarations_convertAll_ne {decl : Declaration} {done rest : List Node}
    (h : ¬ converter.Leaves around (done ++ .declaration decl :: rest) decl) :
    Node.declarations (converter.convertAll around done (.declaration decl :: rest)).1 ≠
      Node.declarations (.declaration decl :: rest) := by
  have hvalue : converter.convertValue decl.value ≠ decl.value :=
    (decide_eq_of_ne_keep (not_or.mp h).1).1
  rw [declarations_convertAll_cons, (convertNode_of_not_leaves h).1]
  cases converter.options.replace with
  | true =>
    -- The first values differ.
    intro hsame
    exact hvalue (congrArg Declaration.value (List.cons.inj hsame).1)
  | false =>
    -- There is one declaration more.
    intro hsame
    have hrest := length_declarations_convertAll converter around rest
      (done ++ [.declaration decl, .declaration (converter.converted decl)])
    have hlength := congrArg List.length (List.cons.inj hsame).2
    exact absurd (hlength.symm ▸ hrest) (Nat.not_succ_le_self _)

/-- **A run through a block makes the same declarations if and only if it leaves each of
    them.** -/
theorem declarations_convertAll_iff (nodes done : List Node) :
    Node.declarations (converter.convertAll around done nodes).1 = Node.declarations nodes ↔
      converter.AllLeft around (done ++ nodes) nodes := by
  induction nodes generalizing done with
  | nil =>
    apply iff_of_true rfl
    intro decl hdecl
    cases hdecl
  | cons node rest ih =>
    cases hnode : node.declaration? with
    | none =>
      obtain ⟨made, tally, hconvert, hmade, -⟩ :=
        convertNode_of_declaration?_eq_none hnode converter around
      have hblock : ∀ prop value, (done ++ [made] ++ rest).any (Node.declares prop value) =
          (done ++ node :: rest).any (Node.declares prop value) := by
        intro prop value
        rw [List.append_cons done node rest, List.any_append,
          any_declares_append_singleton hmade, List.any_append,
          any_declares_append_singleton hnode]
      rw [declarations_convertAll_cons, hconvert, Node.declarations_cons_of_none hmade,
        Node.declarations_cons_of_none hnode, Node.declarations_nil, List.nil_append, ih]
      constructor
      · intro hleft decl hdecl
        rcases List.mem_cons.mp hdecl with rfl | hdecl
        · cases hnode
        · exact (Leaves.congr rfl hblock).mp (hleft decl hdecl)
      · intro hleft decl hdecl
        exact (Leaves.congr rfl hblock).mpr (hleft decl (List.mem_cons_of_mem _ hdecl))
    | some decl =>
      obtain rfl : node = .declaration decl := by
        cases node with
        | declaration other => exact congrArg Node.declaration (Option.some.inj hnode)
        | _ => cases hnode
      by_cases hleaves : converter.Leaves around (done ++ .declaration decl :: rest) decl
      · rw [declarations_convertAll_cons, (convertNode_of_leaves hleaves).1,
          Node.declarations_cons_declaration, Node.declarations_cons_declaration,
          Node.declarations_nil, List.singleton_append, List.cons_inj_right, ih,
          List.append_assoc, List.singleton_append]
        constructor
        · intro hleft other hother
          rcases List.mem_cons.mp hother with hsame | hother
          · cases hsame
            exact hleaves
          · exact hleft other hother
        · intro hleft other hother
          exact hleft other (List.mem_cons_of_mem _ hother)
      · apply iff_of_false (declarations_convertAll_ne hleaves)
        intro hleft
        exact hleaves (hleft decl List.mem_cons_self)

/-- A block is converted to one with the same declarations if and only if each is left. -/
theorem declarations_convertBlock_iff (block : Block) :
    (converter.convertBlock block).declarations = block.declarations ↔
      converter.AllLeft block.around block.nodes block.nodes :=
  declarations_convertAll_iff block.nodes []

/-! ### Listed selectors -/

/-- The declarations of a block whose selector is listed are left. -/
theorem allLeft_of_isSelectorBlacklisted {selector : Text}
    (hselector : around.selector = some selector)
    (hlisted : isSelectorBlacklisted converter.options.selectorBlackList selector = true)
    (block nodes : List Node) : converter.AllLeft around block nodes := by
  intro decl _
  left
  have hcontext : converter.isBlacklisted (around.contextOf decl) = true := by
    rw [isBlacklisted, Surroundings.contextOf, hselector]
    exact hlisted
  rw [decide, hcontext]
  rfl

/-- **The declarations of a block whose selector is listed stay as they are, those inside of
    it only if they would be left anyway.** -/
theorem declarations_transform_of_blacklisted (converter : Converter) (path : Option Text)
    (sheet : Stylesheet) :
    List.Forall₂
      (fun old new => ∀ selector, old.around.selector = some selector →
        isSelectorBlacklisted converter.options.selectorBlackList selector = true →
          new.declarations = old.declarations ∧
            (new.inside.map Block.declarations = old.inside.map Block.declarations ↔
              converter.isExcluded path = true ∨
                ∀ block ∈ old.inside,
                  converter.AllLeft block.around block.nodes block.nodes))
      sheet.blocks (converter.transform path sheet).1.blocks := by
  cases hpath : converter.isExcluded path with
  | true =>
    rw [transform, if_pos hpath, List.forall₂_same]
    intro block _ selector _ _
    exact ⟨rfl, iff_of_true rfl (Or.inl rfl)⟩
  | false =>
    apply forall₂_blocks_transform hpath
    intro block selector hselector hlisted
    constructor
    · rw [declarations_convertBlock_iff]
      exact allLeft_of_isSelectorBlacklisted hselector hlisted _ _
    · rw [inside_convertBlock, List.map_map, or_iff_right Bool.false_ne_true]
      simp only [List.map_inj_left, Function.comp_apply, declarations_convertBlock_iff]

/-- The inner rule is listed itself, and there is no length in the at-rule. -/
theorem declarations_transform_of_blacklisted_inner :
    let converter := ofOptions { selectorBlackList := [.text ".a".toList] }
    let length : Declaration := { prop := ['p'], value := "5px".toList }
    let other : Declaration := { prop := ['p'], value := "5em".toList }
    let sheet : Stylesheet := { nodes := [
      .rule { selector := ".a".toList } [
        .declaration length,
        .rule { selector := ".ab".toList } [.declaration length],
        .atBlock { name := "media".toList, params := [] } [.declaration other]]] }
    ∃ outer inner others, (converter.transform none sheet).1.blocks = outer :: inner :: others ∧
      inner.declarations = [length] ∧
        inner.inside.map Block.declarations = [[length], [other]] := by
  intro converter length other sheet
  have hblocks := declarations_transform_of_blacklisted converter none sheet
  obtain ⟨outer, behind, -, hinner, hnew⟩ := List.forall₂_cons_left_iff.mp hblocks
  obtain ⟨inner, others, hrule, -, rfl⟩ := List.forall₂_cons_left_iff.mp hinner
  obtain ⟨hsame, hinside⟩ := hrule ".a".toList rfl (by decide +kernel)
  refine ⟨outer, inner, others, hnew, hsame, hinside.mpr (Or.inr ?_)⟩
  intro block hblock
  rcases List.mem_cons.mp hblock with rfl | hblock
  · exact allLeft_of_isSelectorBlacklisted rfl (by decide +kernel) _ _
  · obtain rfl := List.mem_singleton.mp hblock
    intro decl hdecl
    cases List.mem_singleton.mp hdecl
    exact Or.inl (by decide +kernel)

/-- The selector `.a` is listed, but the rule and the at-rule inside are converted. -/
theorem not_declarations_eq_of_nested_blocks :
    let converter := ofOptions { selectorBlackList := [.text ".a".toList] }
    let length : Declaration := { prop := ['b'], value := "5px".toList }
    let sheet : Stylesheet := { nodes := [
      .rule { selector := ".a".toList } [
        .rule { selector := ".c".toList } [.declaration length],
        .atBlock { name := "media".toList, params := [] } [.declaration length]]] }
    (converter.transform none sheet).1.print =
        ".a\x7b.c\x7bb: 0.05em\x7d@media\x7bb: 0.05em\x7d\x7d".toList ∧
      ¬ List.Forall₂
        (fun old new => ∀ selector, old.around.selector = some selector →
          isSelectorBlacklisted converter.options.selectorBlackList selector = true →
            new.declarations = old.declarations ∧
              new.inside.map Block.declarations = old.inside.map Block.declarations)
        sheet.blocks (converter.transform none sheet).1.blocks := by
  intro converter length sheet
  refine ⟨by decide +kernel, ?_⟩
  intro hblocks
  obtain ⟨outer, behind, -, hinner, hnew⟩ := List.forall₂_cons_left_iff.mp hblocks
  obtain ⟨inner, others, hrule, -, rfl⟩ := List.forall₂_cons_left_iff.mp hinner
  obtain ⟨-, hsame⟩ := hrule ".a".toList rfl (by decide +kernel)
  have hchanged : ∀ block ∈ (converter.transform none sheet).1.blocks,
      block.inside.map Block.declarations ≠ [[length], [length]] := by
    decide +kernel
  exact hchanged inner (by simp [hnew]) hsame

end Converter

end EmScale
