/-
  EmScale/Proofs/Converter/Block.lean
  ===================================
  **The blocks of a tree, and what a run makes of each.**

  A run deals with the nodes of a block in order.  All that it knows beyond the block is the
  selector and the media queries around it, and it neither makes nor removes blocks.  So the
  blocks of a converted tree are the blocks of the tree in the same order, each converted on
  its own (`Converter.blocks_transform`), and what holds of each block that is converted on
  its own holds of the blocks of a stylesheet (`Converter.forall₂_blocks_transform`).

  Within a block a run may be halted at any node: what it has made by then depends on the
  nodes behind, but it goes on from there as from any other start (`Converter.blockAfter_append`).
-/
import EmScale.Proofs.Converter.Transform

namespace EmScale

/-! ### Blocks -/

/-- The nodes of a block and what is around them. -/
structure Block where
  around : Surroundings
  nodes : List Node

mutual

/-- The blocks inside of a node, each in front of those inside it. -/
def Node.blocks (around : Surroundings) : Node → List Block
  | .rule head children =>
    ⟨around.insideRule head, children⟩ :: Node.blocksAll (around.insideRule head) children
  | .atBlock head children =>
    ⟨around.insideAtRule head, children⟩ :: Node.blocksAll (around.insideAtRule head) children
  | .atLine _ | .declaration _ | .comment _ => []

def Node.blocksAll (around : Surroundings) : List Node → List Block
  | [] => []
  | node :: rest => node.blocks around ++ Node.blocksAll around rest

end

/-- The blocks inside of a block, at any depth. -/
def Block.inside (block : Block) : List Block :=
  Node.blocksAll block.around block.nodes

/-- The block of all nodes that stand in nothing else. -/
def Stylesheet.outerBlock (sheet : Stylesheet) : Block :=
  ⟨{}, sheet.nodes⟩

/-- All blocks of a stylesheet, each in front of those inside it. -/
def Stylesheet.blocks (sheet : Stylesheet) : List Block :=
  sheet.outerBlock :: sheet.outerBlock.inside

theorem Node.blocksAll_append (around : Surroundings) (a b : List Node) :
    Node.blocksAll around (a ++ b) = Node.blocksAll around a ++ Node.blocksAll around b := by
  induction a with
  | nil => rfl
  | cons node a ih => rw [List.cons_append, blocksAll, blocksAll, ih, List.append_assoc]

namespace Converter

/-! ### A run within a block -/

section Run

variable (converter : Converter) (around : Surroundings)

/-- The block that a run leaves which has made `done` and has still to deal with `nodes`. -/
def blockAfter (done nodes : List Node) : List Node :=
  done ++ (converter.convertAll around done nodes).1

/-- What a run that started behind `done` has made when it has dealt with `front` and `rest`
    stands behind that. -/
def madeBefore (rest done : List Node) : List Node → List Node
  | [] => done
  | node :: front =>
    madeBefore rest
      (done ++ (converter.convertNode around (done ++ node :: (front ++ rest)) node).1) front

variable (done rest : List Node)

theorem blockAfter_nil : converter.blockAfter around done [] = done := by
  rw [blockAfter, convertAll, List.append_nil]

/-- **A step of a run.** -/
theorem blockAfter_cons (node : Node) :
    converter.blockAfter around done (node :: rest) =
      converter.blockAfter around
        (done ++ (converter.convertNode around (done ++ node :: rest) node).1) rest := by
  rw [blockAfter, blockAfter, convertAll_cons, List.append_assoc]

/-- **A run goes on from where it was halted.** -/
theorem blockAfter_append (front : List Node) :
    converter.blockAfter around done (front ++ rest) =
      converter.blockAfter around (converter.madeBefore around rest done front) rest := by
  induction front generalizing done with
  | nil => rfl
  | cons node front ih => rw [List.cons_append, blockAfter_cons, ih, madeBefore]

theorem madeBefore_append (front more : List Node) :
    converter.madeBefore around rest done (front ++ more) =
      converter.madeBefore around rest
        (converter.madeBefore around (more ++ rest) done front) more := by
  induction front generalizing done with
  | nil => rfl
  | cons node front ih =>
    rw [List.cons_append, madeBefore, ih, madeBefore, List.append_assoc]

end Run

/-! ### Blocks of converted trees -/

/-- A block with what a run makes of its nodes. -/
def convertBlock (converter : Converter) (block : Block) : Block :=
  ⟨block.around, converter.blockAfter block.around [] block.nodes⟩

variable {converter : Converter}

theorem convertBlock_mk (around : Surroundings) (nodes : List Node) :
    converter.convertBlock ⟨around, nodes⟩ =
      ⟨around, (converter.convertAll around [] nodes).1⟩ := rfl

/-- What stands in the place of a declaration has no blocks. -/
theorem blocksAll_convertNode_declaration (around : Surroundings) (block : List Node)
    (decl : Declaration) :
    Node.blocksAll around (converter.convertNode around block (.declaration decl)).1 = [] := by
  rcases converter.convertNode_declaration_cases around block decl with h | h | ⟨-, -, h⟩ <;>
    rw [h] <;> rfl

mutual

theorem blocksAll_convertNode : ∀ (node : Node) (around : Surroundings) (block : List Node),
    Node.blocksAll around (converter.convertNode around block node).1 =
      (node.blocks around).map converter.convertBlock
  | .rule head children, around, _ => by
    have hinside := blocksAll_convertAll children (around.insideRule head) []
    rw [convertNode_rule, Node.blocksAll, Node.blocks, hinside]
    simp [Node.blocks, Node.blocksAll, convertBlock_mk]
  | .atBlock head children, around, _ => by
    have hinside := blocksAll_convertAll children (around.insideAtRule head) []
    rw [convertNode_atBlock, Node.blocksAll, Node.blocks, insideAtRule_convertHead, hinside]
    simp [Node.blocks, Node.blocksAll, convertBlock_mk]
  | .atLine _, _, _ => rfl
  | .declaration decl, around, block => blocksAll_convertNode_declaration around block decl
  | .comment _, _, _ => rfl

/-- **The blocks inside of a converted block** are the blocks inside of it, converted. -/
theorem blocksAll_convertAll : ∀ (nodes : List Node) (around : Surroundings) (done : List Node),
    Node.blocksAll around (converter.convertAll around done nodes).1 =
      (Node.blocksAll around nodes).map converter.convertBlock
  | [], _, _ => rfl
  | node :: rest, around, done => by
    rw [convertAll_cons, Node.blocksAll_append, blocksAll_convertNode node,
      blocksAll_convertAll rest, Node.blocksAll, List.map_append]

end

theorem inside_convertBlock (block : Block) :
    (converter.convertBlock block).inside = block.inside.map converter.convertBlock :=
  blocksAll_convertAll block.nodes block.around []

section Transform

variable {path : Option Text} (hpath : converter.isExcluded path = false)

include hpath

/-- **The blocks of a converted stylesheet are its blocks, each converted on its own.** -/
theorem blocks_transform (sheet : Stylesheet) :
    (converter.transform path sheet).1.blocks = sheet.blocks.map converter.convertBlock := by
  have houter : (converter.transform path sheet).1.outerBlock =
      converter.convertBlock sheet.outerBlock := by
    rw [transform_eq hpath]
    rfl
  rw [Stylesheet.blocks, houter, inside_convertBlock, Stylesheet.blocks, List.map_cons]

/-- What holds of every block and what it is converted to holds of the blocks at the same
    places of a stylesheet and of what that is converted to. -/
theorem forall₂_blocks_transform {R : Block → Block → Prop}
    (h : ∀ block, R block (converter.convertBlock block)) (sheet : Stylesheet) :
    List.Forall₂ R sheet.blocks (converter.transform path sheet).1.blocks := by
  rw [blocks_transform hpath, List.forall₂_map_right_iff, List.forall₂_same]
  intro block _
  exact h block

end Transform

end Converter

end EmScale
