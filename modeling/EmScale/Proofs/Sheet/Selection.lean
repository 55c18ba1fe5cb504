/-
  EmScale/Proofs/Sheet/Selection.lean
  ===================================
  **Nodes chosen in a tree, and the tree without them.**

  A node is named by the block it stands in and its number there, and a block by the way that
  leads to it.  A selection tells which nodes are meant.  Selections are put together as trees
  are: side by side, for the nodes of a block behind one another, and one level further in,
  for the children of a node.
-/
import EmScale.Sheet.Basic

namespace EmScale

/-- The way to a block: the number of the node to go into, then the number of the one among
    its children, and so on.  The empty way stays where it starts. -/
abbrev Place := List Nat

/-- A choice of nodes, each given by the place of its block and its number in it. -/
abbrev Selection := Place → Nat → Bool

namespace Node

/-- The block at a place, from the block `nodes` on. -/
def blockAt? (nodes : List Node) : Place → Option (List Node)
  | [] => some nodes
  | step :: place => nodes[step]?.bind fun node => blockAt? node.children place

mutual

/-- A node without what is chosen inside of it; places start at its own block. -/
def without (gone : Selection) : Node → Node
  | rule head children => rule head (withoutAll gone 0 children)
  | atBlock head children => atBlock head (withoutAll gone 0 children)
  | atLine head => atLine head
  | declaration decl => declaration decl
  | comment note => comment note

/-- The nodes of a block from number `index` on, without those that are chosen. -/
def withoutAll (gone : Selection) (index : Nat) : List Node → List Node
  | [] => []
  | node :: rest =>
    if gone [] index then withoutAll gone (index + 1) rest
    else
      without (fun place => gone (index :: place)) node :: withoutAll gone (index + 1) rest

end

end Node

/-! ### Putting selections together -/

namespace Selection

/-- Nothing is chosen. -/
def none : Selection :=
  fun _ _ => false

/-- What `first` chooses among the first `count` nodes of a block, and what `second` chooses
    among the nodes behind them. -/
def beside (count : Nat) (first second : Selection) : Selection
  | [], index => if index < count then first [] index else second [] (index - count)
  | step :: place, index =>
    if step < count then first (step :: place) index else second ((step - count) :: place) index

/-- The second node of a block is chosen. -/
def behindFirst : Selection
  | [], 1 => true
  | _, _ => false

/-- What `inner` chooses inside of the first node of a block. -/
def within (inner : Selection) : Selection
  | 0 :: place, index => inner place index
  | _, _ => false

end Selection

namespace Node

section Beside

variable {a b : List Node}

theorem blockAt?_append_left {step : Nat} (place : Place) (h : step < a.length) :
    blockAt? (a ++ b) (step :: place) = blockAt? a (step :: place) := by
  rw [blockAt?, blockAt?, List.getElem?_append_left h]

theorem blockAt?_append_right {step : Nat} (place : Place) (h : a.length ≤ step) :
    blockAt? (a ++ b) (step :: place) = blockAt? b ((step - a.length) :: place) := by
  rw [blockAt?, blockAt?, List.getElem?_append_right h]

theorem withoutAll_append (gone : Selection) (index : Nat) (a b : List Node) :
    withoutAll gone index (a ++ b) =
      withoutAll gone index a ++ withoutAll gone (index + a.length) b := by
  induction a generalizing index with
  | nil => rfl
  | cons node a ih =>
    simp only [List.cons_append, withoutAll, ih, List.length_cons]
    rw [Nat.add_assoc, Nat.add_comm 1]
    split <;> rfl

/-- What a block is without the chosen nodes depends on what is chosen there. -/
theorem withoutAll_congr {gone gone' : Selection} {index index' : Nat} {nodes : List Node}
    (hhere : ∀ i < nodes.length, gone [] (index + i) = gone' [] (index' + i))
    (hinside : ∀ i < nodes.length, ∀ place,
      gone ((index + i) :: place) = gone' ((index' + i) :: place)) :
    withoutAll gone index nodes = withoutAll gone' index' nodes := by
  induction nodes generalizing index index' with
  | nil => rfl
  | cons node rest ih =>
    have hfirst := hhere 0 (by simp)
    have hnode := funext (hinside 0 (by simp))
    have hrest : withoutAll gone (index + 1) rest = withoutAll gone' (index' + 1) rest := by
      apply ih
      · intro i hi
        have h := hhere (i + 1) (by simpa using hi)
        rwa [← Nat.add_assoc, ← Nat.add_assoc, Nat.add_right_comm, Nat.add_right_comm index'] at h
      · intro i hi place
        have h := hinside (i + 1) (by simpa using hi) place
        rwa [← Nat.add_assoc, ← Nat.add_assoc, Nat.add_right_comm, Nat.add_right_comm index'] at h
    simp only [Nat.add_zero] at hfirst hnode
    rw [withoutAll, withoutAll, hfirst, hnode, hrest]

/-- Two blocks behind one another are left without what is chosen in each of them. -/
theorem withoutAll_beside (first second : Selection) (a b : List Node) :
    withoutAll (.beside a.length first second) 0 (a ++ b) =
      withoutAll first 0 a ++ withoutAll second 0 b := by
  rw [withoutAll_append]
  congr 1
  · apply withoutAll_congr
    · intro i hi
      simp [Selection.beside, hi]
    · intro i hi place
      funext index
      simp [Selection.beside, hi]
  · have hbehind : ∀ i, ¬ a.length + i < a.length := by
      intro i
      omega
    apply withoutAll_congr
    · intro i _
      simp [Selection.beside, hbehind]
    · intro i _ place
      funext index
      simp [Selection.beside, hbehind]

end Beside

end Node

end EmScale
