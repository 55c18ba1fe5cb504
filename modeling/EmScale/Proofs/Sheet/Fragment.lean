/-
  EmScale/Proofs/Sheet/Fragment.lean
  ==================================
  **The text of a stylesheet in fragments.**

  Printing a tree writes declarations, preludes of at-rules, and text that belongs to neither.
  `Stylesheet.fragments` lists what is written in order, so the fragments in front of a place
  say where in the text it is.  The declarations and the preludes in the list are those of the
  tree (`Stylesheet.filter_fragments`).
-/
import EmScale.Proofs.Sheet.Piece
import EmScale.Sheet.Printer

namespace EmScale

inductive Fragment where
  /-- Text that belongs neither to a declaration nor to a prelude. -/
  | fixed (text : Text)
  /-- A declaration from its property to the end of its value. -/
  | declaration (decl : Declaration)
  | prelude (head : AtRule)
deriving DecidableEq, Repr

namespace Fragment

def text : Fragment → Text
  | fixed t => t
  | declaration decl => decl.text
  | prelude head => head.params

def textAll (fragments : List Fragment) : Text :=
  fragments.flatMap text

def isFixed : Fragment → Bool
  | fixed _ => true
  | declaration _ | prelude _ => false

@[simp] theorem isFixed_fixed (t : Text) : (fixed t).isFixed = true := rfl

@[simp] theorem isFixed_declaration (decl : Declaration) :
    (declaration decl).isFixed = false := rfl

@[simp] theorem isFixed_prelude (head : AtRule) : (prelude head).isFixed = false := rfl

@[simp] theorem textAll_nil : textAll [] = [] := rfl

@[simp] theorem textAll_cons (fragment : Fragment) (rest : List Fragment) :
    textAll (fragment :: rest) = fragment.text ++ textAll rest := rfl

@[simp] theorem textAll_append (a b : List Fragment) :
    textAll (a ++ b) = textAll a ++ textAll b :=
  List.flatMap_append

end Fragment

/-- The declaration or the prelude that a node itself has. -/
def Node.fragment? : Node → Option Fragment
  | atBlock head _ | atLine head => some (.prelude head)
  | declaration decl => some (.declaration decl)
  | rule .. | comment _ => none

def AtRule.fragments (head : AtRule) : List Fragment :=
  [.fixed ('@' :: (head.name ++ head.afterName)), .prelude head, .fixed head.raws.between]

mutual

/-- A node without the blanks in front of it. -/
def Node.fragments : Node → List Fragment
  | .rule head children =>
    .fixed (head.selector ++ head.raws.between ++ ['{']) ::
      (Node.fragmentsAll head.raws.semicolon children ++ [.fixed (head.raws.after ++ ['}'])])
  | .atBlock head children =>
    head.fragments ++ .fixed ['{'] ::
      (Node.fragmentsAll head.raws.semicolon children ++ [.fixed (head.raws.after ++ ['}'])])
  | .atLine head => head.fragments
  | .declaration decl => [.declaration decl, .fixed decl.after]
  | .comment note => [.fixed ('/' :: '*' :: (note.text ++ ['*', '/']))]

/-- The nodes of a block, with the semicolons that close them. -/
def Node.fragmentsAll (semicolon : Bool) : List Node → List Fragment
  | [] => []
  | node :: rest =>
    .fixed node.before ::
      (node.fragments ++ .fixed (node.closer semicolon rest) :: Node.fragmentsAll semicolon rest)

end

def Stylesheet.fragments (sheet : Stylesheet) : List Fragment :=
  Node.fragmentsAll sheet.semicolon sheet.nodes ++ [.fixed sheet.after]

/-! ### Fragments are what is printed -/

theorem AtRule.textAll_fragments (head : AtRule) :
    Fragment.textAll head.fragments = head.print := by
  simp [fragments, print, Fragment.text]

namespace Node

mutual

theorem textAll_fragments : ∀ node : Node, Fragment.textAll node.fragments = node.body
  | .rule head children => by
    have hchildren := textAll_fragmentsAll head.raws.semicolon children
    simp [fragments, body, Fragment.text, hchildren]
  | .atBlock head children => by
    have hchildren := textAll_fragmentsAll head.raws.semicolon children
    simp [fragments, body, Fragment.text, hchildren, AtRule.textAll_fragments]
  | .atLine head => by
    rw [fragments, body, AtRule.textAll_fragments]
  | .declaration decl => by
    simp [fragments, body, Fragment.text, Declaration.text]
  | .comment note => by
    simp [fragments, body, Fragment.text]

theorem textAll_fragmentsAll (semicolon : Bool) :
    ∀ nodes : List Node, Fragment.textAll (fragmentsAll semicolon nodes) = printAll semicolon nodes
  | [] => by
    rw [fragmentsAll, printAll, Fragment.textAll_nil]
  | node :: rest => by
    have hnode := textAll_fragments node
    have hrest := textAll_fragmentsAll semicolon rest
    simp [fragmentsAll, printAll, Fragment.text, hnode, hrest]

end

end Node

/-- **The fragments of a stylesheet make up its text.** -/
theorem Stylesheet.textAll_fragments (sheet : Stylesheet) :
    Fragment.textAll sheet.fragments = sheet.print := by
  simp [fragments, print, Fragment.text, Node.textAll_fragmentsAll]

/-! ### Fragments and nodes -/

namespace Node

mutual

theorem filter_fragments :
    ∀ node : Node, node.fragments.filter (!·.isFixed) = node.preorder.filterMap fragment?
  | .rule head children => by
    have hchildren := filter_fragmentsAll head.raws.semicolon children
    rw [preorder, List.filterMap_cons_none rfl]
    simp [fragments, hchildren]
  | .atBlock head children => by
    have hchildren := filter_fragmentsAll head.raws.semicolon children
    simp [fragments, AtRule.fragments, preorder, fragment?, hchildren]
  | .atLine head => by
    simp [fragments, AtRule.fragments, preorder, fragment?]
  | .declaration decl => by
    simp [fragments, preorder, fragment?]
  | .comment note => by
    simp [fragments, preorder, fragment?]

theorem filter_fragmentsAll (semicolon : Bool) :
    ∀ nodes : List Node,
      (fragmentsAll semicolon nodes).filter (!·.isFixed) =
        (preorderAll nodes).filterMap fragment?
  | [] => by
    rw [fragmentsAll, preorderAll, List.filter_nil, List.filterMap_nil]
  | node :: rest => by
    have hnode := filter_fragments node
    have hrest := filter_fragmentsAll semicolon rest
    simp [fragmentsAll, preorderAll, hnode, hrest]

end

end Node

/-- **What is not fixed are the declarations and preludes of the tree** in their order. -/
theorem Stylesheet.filter_fragments (sheet : Stylesheet) :
    sheet.fragments.filter (!·.isFixed) = sheet.allNodes.filterMap Node.fragment? := by
  simp [fragments, allNodes, Node.filter_fragmentsAll]

theorem Stylesheet.declaration_mem_fragments_iff {sheet : Stylesheet} {decl : Declaration} :
    .declaration decl ∈ sheet.fragments ↔ .declaration decl ∈ sheet.allNodes := by
  have hfilter : .declaration decl ∈ sheet.fragments ↔
      .declaration decl ∈ sheet.fragments.filter (!·.isFixed) := by
    simp
  rw [hfilter, filter_fragments, List.mem_filterMap]
  constructor
  · rintro ⟨node, hnode, hown⟩
    cases node with
    | declaration other =>
      cases hown
      exact hnode
    | _ => cases hown
  · intro hnode
    exact ⟨_, hnode, rfl⟩

end EmScale
