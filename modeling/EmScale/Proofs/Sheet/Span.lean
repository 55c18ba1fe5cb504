/-
  EmScale/Proofs/Sheet/Span.lean
  ==============================
  **Stylesheets with and without the places of their nodes.**

  `Stylesheet.erase` takes the spans off a tree.  Two trees are equal in everything but
  spans if they are equal without them.  Printing does not look at spans.

  `Stylesheet.locate` lays spans over a tree, and changes nothing else.  It knows no text but
  the tree's own: the span of a node follows from the texts in front of it and its own text.
  A span starts behind the blanks in front of the node.  It ends behind the node, except that

  * an at-rule without a block includes the semicolon that closes it, and
  * the last node of a block, if a semicolon could close it and none does, reaches to the end
    of the block: nothing but the blanks in front of that end follows.

  These are the places that are kept while a text is read (`Stylesheet.parse_eq_ok_iff`).
-/
import EmScale.Sheet.Reader
import Mathlib

namespace EmScale

/-! ### Taking spans off -/

mutual

/-- A node without spans. -/
def Node.erase : Node → Node
  | .rule head children => .rule { head with span := {} } (Node.eraseAll children)
  | .atBlock head children => .atBlock { head with span := {} } (Node.eraseAll children)
  | .atLine head => .atLine { head with span := {} }
  | .declaration decl => .declaration { decl with span := {} }
  | .comment note => .comment { note with span := {} }

/-- The nodes of a block without spans. -/
def Node.eraseAll : List Node → List Node
  | [] => []
  | node :: rest => node.erase :: Node.eraseAll rest

end

/-- A stylesheet without spans. -/
def Stylesheet.erase (sheet : Stylesheet) : Stylesheet :=
  { sheet with nodes := Node.eraseAll sheet.nodes }

namespace Node

@[simp] theorem eraseAll_append (nodes others : List Node) :
    eraseAll (nodes ++ others) = eraseAll nodes ++ eraseAll others := by
  induction nodes with
  | nil => rfl
  | cons node rest ih => simp [eraseAll, ih]

@[simp] theorem isEmpty_eraseAll (nodes : List Node) :
    (eraseAll nodes).isEmpty = nodes.isEmpty := by
  cases nodes <;> rfl

theorem eraseAll_eq_map (nodes : List Node) : eraseAll nodes = nodes.map erase := by
  induction nodes with
  | nil => rfl
  | cons node rest ih => rw [eraseAll, ih, List.map_cons]

mutual

theorem erase_erase : ∀ node : Node, node.erase.erase = node.erase
  | .rule _ children | .atBlock _ children => by simp [erase, eraseAll_eraseAll children]
  | .atLine _ | .declaration _ | .comment _ => rfl

theorem eraseAll_eraseAll : ∀ nodes : List Node, eraseAll (eraseAll nodes) = eraseAll nodes
  | [] => rfl
  | node :: rest => by simp [eraseAll, erase_erase node, eraseAll_eraseAll rest]

end

/-! ### What does not look at spans -/

@[simp] theorem before_erase (node : Node) : node.erase.before = node.before := by
  cases node <;> rfl

@[simp] theorem takesSemicolon_erase (node : Node) :
    node.erase.takesSemicolon = node.takesSemicolon := by
  cases node <;> rfl

@[simp] theorem isClosed_erase (semicolon : Bool) (rest : List Node) (node : Node) :
    node.erase.isClosed semicolon (eraseAll rest) = node.isClosed semicolon rest := by
  simp [isClosed]

@[simp] theorem children_erase (node : Node) : node.erase.children = eraseAll node.children := by
  cases node <;> rfl

@[simp] theorem declares_erase (prop value : Text) (node : Node) :
    node.erase.declares prop value = node.declares prop value := by
  cases node <;> rfl

@[simp] theorem any_declares_eraseAll (prop value : Text) (nodes : List Node) :
    (eraseAll nodes).any (declares prop value) = nodes.any (declares prop value) := by
  induction nodes with
  | nil => rfl
  | cons node rest ih => simp [eraseAll, ih]

theorem preorderAll_append (nodes others : List Node) :
    preorderAll (nodes ++ others) = preorderAll nodes ++ preorderAll others := by
  induction nodes with
  | nil => rfl
  | cons node rest ih => simp [preorderAll, ih]

mutual

theorem preorder_erase : ∀ node : Node, node.erase.preorder = node.preorder.map erase
  | .rule _ children | .atBlock _ children => by
    simp [erase, preorder, preorderAll_eraseAll children]
  | .atLine _ | .declaration _ | .comment _ => rfl

theorem preorderAll_eraseAll : ∀ nodes : List Node,
    preorderAll (eraseAll nodes) = (preorderAll nodes).map erase
  | [] => rfl
  | node :: rest => by
    simp [eraseAll, preorderAll, preorder_erase node, preorderAll_eraseAll rest]

end

mutual

theorem body_erase : ∀ node : Node, node.erase.body = node.body
  | .rule _ children => by simp [erase, body, printAll_eraseAll _ children]
  | .atBlock _ children => by simp [erase, body, AtRule.print, printAll_eraseAll _ children]
  | .atLine _ | .declaration _ | .comment _ => rfl

theorem printAll_eraseAll (semicolon : Bool) :
    ∀ nodes : List Node, printAll semicolon (eraseAll nodes) = printAll semicolon nodes
  | [] => rfl
  | node :: rest => by
    simp [eraseAll, printAll, closer, body_erase node, printAll_eraseAll semicolon rest]

end

end Node

/-! ### Laying spans over a tree -/

/-- What the span of a node covers behind its body.  `closed` tells whether a semicolon
    follows, `after` is the text behind the last node of the block. -/
def Node.tail (closed : Bool) (after : Text) : Node → Text
  | .atLine _ => if closed then [';'] else after
  | .declaration _ => if closed then [] else after
  | .rule .. | .atBlock .. | .comment _ => []

mutual

/-- Lays spans over a node whose body starts at `start` and whose span covers `tail` behind
    the body.  Gives the node and the place behind its body. -/
def Node.locate (start : Position) (tail : Text) : Node → Node × Position
  | .rule head children =>
    let inside := start.after (head.selector ++ head.raws.between ++ ['{'])
    let (children, last) := Node.locateAll inside head.raws.semicolon head.raws.after children
    let behind := last.after (head.raws.after ++ ['}'])
    (.rule { head with span := ⟨start, behind.after tail⟩ } children, behind)
  | .atBlock head children =>
    let inside := start.after (head.print ++ ['{'])
    let (children, last) := Node.locateAll inside head.raws.semicolon head.raws.after children
    let behind := last.after (head.raws.after ++ ['}'])
    (.atBlock { head with span := ⟨start, behind.after tail⟩ } children, behind)
  | .atLine head =>
    let behind := start.after (Node.atLine head).body
    (.atLine { head with span := ⟨start, behind.after tail⟩ }, behind)
  | .declaration decl =>
    let behind := start.after (Node.declaration decl).body
    (.declaration { decl with span := ⟨start, behind.after tail⟩ }, behind)
  | .comment note =>
    let behind := start.after (Node.comment note).body
    (.comment { note with span := ⟨start, behind.after tail⟩ }, behind)

/-- Lays spans over the nodes of a block that are printed from `place` on.  Gives the nodes
    and the place behind them. -/
def Node.locateAll (place : Position) (semicolon : Bool) (after : Text) :
    List Node → List Node × Position
  | [] => ([], place)
  | node :: rest =>
    let tail := node.tail (node.isClosed semicolon rest) after
    let (located, behind) := node.locate (place.after node.before) tail
    let (others, last) :=
      Node.locateAll (behind.after (node.closer semicolon rest)) semicolon after rest
    (located :: others, last)

end

/-- Lays spans over a stylesheet. -/
def Stylesheet.locate (sheet : Stylesheet) : Stylesheet :=
  { sheet with nodes := (Node.locateAll {} sheet.semicolon sheet.after sheet.nodes).1 }

mutual

/-- The place behind a node is measured by its body. -/
theorem Node.locate_snd (start : Position) (tail : Text) :
    ∀ node : Node, (node.locate start tail).2 = start.after node.body
  | .rule head children => by simp [locate, body, Node.locateAll_snd]
  | .atBlock head children => by simp [locate, body, Node.locateAll_snd]
  | .atLine _ | .declaration _ | .comment _ => rfl

/-- The place behind the nodes of a block is measured by their text. -/
theorem Node.locateAll_snd (place : Position) (semicolon : Bool) (after : Text) :
    ∀ nodes : List Node,
      (Node.locateAll place semicolon after nodes).2 =
        place.after (Node.printAll semicolon nodes)
  | [] => rfl
  | node :: rest => by
    simp [locateAll, printAll, Node.locate_snd, Node.locateAll_snd]

end

namespace Node

mutual

theorem erase_locate (start : Position) (tail : Text) :
    ∀ node : Node, (node.locate start tail).1.erase = node.erase
  | .rule _ children | .atBlock _ children => by
    simp [locate, erase, eraseAll_locateAll _ _ _ children]
  | .atLine _ | .declaration _ | .comment _ => rfl

theorem eraseAll_locateAll (place : Position) (semicolon : Bool) (after : Text) :
    ∀ nodes : List Node, eraseAll (locateAll place semicolon after nodes).1 = eraseAll nodes
  | [] => rfl
  | node :: rest => by
    simp [locateAll, eraseAll, erase_locate _ _ node, eraseAll_locateAll _ semicolon after rest]

end

end Node

namespace Stylesheet

@[simp] theorem erase_erase (sheet : Stylesheet) : sheet.erase.erase = sheet.erase := by
  simp [erase, Node.eraseAll_eraseAll]

/-- **Printing does not look at spans.** -/
@[simp] theorem print_erase (sheet : Stylesheet) : sheet.erase.print = sheet.print := by
  simp [erase, print, Node.printAll_eraseAll]

/-- **Spans are all that is laid over a stylesheet.** -/
@[simp] theorem erase_locate (sheet : Stylesheet) : sheet.locate.erase = sheet.erase := by
  simp [erase, locate, Node.eraseAll_locateAll]

theorem print_eq_of_erase_eq {sheet other : Stylesheet} (h : sheet.erase = other.erase) :
    sheet.print = other.print := by
  rw [← print_erase sheet, h, print_erase other]

end Stylesheet

end EmScale
