/-
  EmScale/Proofs/Sheet/Concat.lean
  ================================
  **Reading two stylesheets behind one another.**

  Where the first of two texts ends with a rule, a comment, an at-rule with a block or a
  semicolon, nothing of the second one belongs to its last node.  The two texts behind one
  another are then read as the nodes of both, and the blanks and semicolons that the first
  text ends with stand in front of the first node of the second one
  (`Stylesheet.read_append`).
-/
import EmScale.Proofs.Sheet.Reread
import EmScale.Proofs.Sheet.Rejoin

namespace EmScale

namespace Node

/-! ### Blanks in front of a node -/

/-- A node with a text in front of what stands before it. -/
def prepend (front : Text) : Node → Node
  | rule head children =>
    rule { head with raws := { head.raws with before := front ++ head.raws.before } } children
  | atBlock head children =>
    atBlock { head with raws := { head.raws with before := front ++ head.raws.before } } children
  | atLine head =>
    atLine { head with raws := { head.raws with before := front ++ head.raws.before } }
  | declaration decl => declaration { decl with before := front ++ decl.before }
  | comment note => comment { note with before := front ++ note.before }

section Prepend

variable (front : Text) (node : Node)

@[simp] theorem before_prepend : (node.prepend front).before = front ++ node.before := by
  cases node <;> rfl

@[simp] theorem body_prepend : (node.prepend front).body = node.body := by
  cases node <;> rfl

@[simp] theorem takesSemicolon_prepend :
    (node.prepend front).takesSemicolon = node.takesSemicolon := by
  cases node <;> rfl

@[simp] theorem declares_prepend (prop value : Text) :
    (node.prepend front).declares prop value = node.declares prop value := by
  cases node <;> rfl

theorem erase_prepend : (node.prepend front).erase = node.erase.prepend front := by
  cases node <;> rfl

theorem isClosed_prepend (semicolon : Bool) (rest : List Node) :
    (node.prepend front).isClosed semicolon rest = node.isClosed semicolon rest := by
  simp [isClosed]

/-- The text in front of the first node of a block stands in front of the text of the block. -/
theorem printAll_prepend_cons (semicolon : Bool) (rest : List Node) :
    printAll semicolon (node.prepend front :: rest) =
      front ++ printAll semicolon (node :: rest) := by
  simp [printAll, closer, isClosed]

end Prepend

theorem printAll_cons_cons {node : Node} (htakes : node.takesSemicolon = true) (semicolon : Bool)
    (next : Node) (rest : List Node) :
    printAll semicolon (node :: next :: rest) =
      node.before ++ node.body ++ ';' :: printAll semicolon (next :: rest) := by
  simp [printAll, closer, isClosed, htakes]

theorem Reads.prepend {front : Text} (hfront : front.IsFiller) {after : Text}
    {stop : Option Char} {node : Node} {closed : Bool} (h : node.Reads after stop closed) :
    (node.prepend front).Reads after stop closed := by
  cases node with
  | rule head children =>
    obtain ⟨hhead, hchildren⟩ := h
    exact ⟨⟨hfront.append hhead.before, hhead.opens, hhead.statement⟩, hchildren⟩
  | atBlock head children =>
    obtain ⟨hhead, hchildren⟩ := h
    exact ⟨⟨⟨hfront.append hhead.before, hhead.named, hhead.name, hhead.afterName, hhead.params,
      hhead.statement⟩, hhead.separated⟩, hchildren⟩
  | atLine head =>
    obtain ⟨hline, hbetween, hhead⟩ := h
    exact ⟨hline, hbetween, ⟨hfront.append hhead.before, hhead.named, hhead.name, hhead.afterName,
      hhead.params, hhead.statement⟩, hhead.separated⟩
  | declaration decl =>
    obtain ⟨hafter, hdecl⟩ := h
    exact ⟨hafter, hfront.append hdecl.before, hdecl.opens, hdecl.prop, hdecl.tight,
      hdecl.between, hdecl.value, hdecl.statement⟩
  | comment note => exact ⟨hfront.append h.before, h.text⟩

/-! ### Blocks whose last node is closed -/

/-- The last node of a block, if there is one, is a rule, a comment or an at-rule with a block,
    or a semicolon closes it. -/
def EndsClosed (semicolon : Bool) (nodes : List Node) : Prop :=
  ∀ node ∈ nodes.getLast?, node.takesSemicolon = true → semicolon = true

instance (semicolon : Bool) (nodes : List Node) : Decidable (EndsClosed semicolon nodes) :=
  inferInstanceAs (Decidable (∀ node ∈ nodes.getLast?,
    node.takesSemicolon = true → semicolon = true))

theorem EndsClosed.tail {semicolon : Bool} {node : Node} {rest : List Node}
    (h : EndsClosed semicolon (node :: rest)) : EndsClosed semicolon rest := by
  cases rest with
  | nil => exact nofun
  | cons next rest => exact h

theorem EndsClosed.isClosed {semicolon : Bool} {node : Node} {rest : List Node}
    (h : EndsClosed semicolon (node :: rest)) :
    node.isClosed semicolon rest = node.takesSemicolon := by
  cases rest with
  | nil =>
    have hlast := h node rfl
    cases htakes : node.takesSemicolon <;> simp_all [Node.isClosed]
  | cons next rest => exact isClosed_of_ne_nil semicolon (List.cons_ne_nil next rest) node

section Closed

variable {Q : AtRule → Text → Option Char → Prop} {after after' : Text} {stop stop' : Option Char}
  {semicolon closed : Bool} {nodes : List Node}

/-- The nodes of such a block have their shape whatever follows the block. -/
theorem fits_of_endsClosed (hclosed : EndsClosed semicolon nodes)
    (h : AllFit Q after stop semicolon closed nodes) :
    ∀ node ∈ nodes, node.Fits Q after' stop' node.takesSemicolon := by
  induction nodes generalizing closed with
  | nil => exact nofun
  | cons node rest ih =>
    obtain ⟨hnode, hrest⟩ := h
    intro inner hinner
    rcases List.mem_cons.mp hinner with rfl | hinner
    · rw [hclosed.isClosed] at hnode
      exact fits_congr_behind id hnode
    · exact ih hclosed.tail hrest inner hinner

theorem AllFit.congr_after (hclosed : EndsClosed semicolon nodes) (hafter : after'.IsFiller)
    (h : AllFit Q after stop semicolon closed nodes) :
    AllFit Q after' stop' semicolon closed nodes := by
  induction nodes generalizing closed with
  | nil => exact ⟨hafter, h.2⟩
  | cons node rest ih =>
    obtain ⟨hnode, hrest⟩ := h
    refine ⟨?_, ih hclosed.tail hrest⟩
    apply fits_congr_behind _ hnode
    intro htakes
    rw [hclosed.isClosed, htakes]

/-- The text of such a block goes on with the text of the nodes behind it. -/
theorem printAll_append_of_endsClosed (hclosed : EndsClosed semicolon nodes) {rest : List Node}
    (hrest : rest ≠ []) (semicolon' : Bool) :
    printAll semicolon' (nodes ++ rest) = printAll semicolon nodes ++ printAll semicolon' rest := by
  induction nodes with
  | nil => rfl
  | cons node nodes ih =>
    have hne := List.append_ne_nil_of_right_ne_nil nodes hrest
    rw [List.cons_append, printAll, printAll, ih hclosed.tail, closer, closer,
      hclosed.isClosed, isClosed_of_ne_nil semicolon' hne]
    simp only [List.append_assoc]

end Closed

end Node

namespace Stylesheet

/-! ### Two stylesheets behind one another -/

/-- The nodes of two stylesheets; what follows those of the first one stands in front of the
    first one of the second. -/
def append (first second : Stylesheet) : Stylesheet :=
  match second.nodes with
  | [] => { first with after := first.after ++ second.after }
  | node :: rest => { second with nodes := first.nodes ++ node.prepend first.after :: rest }

/-- The last node, if there is one, is a rule, a comment or an at-rule with a block, or a
    semicolon closes it. -/
def EndsClosed (sheet : Stylesheet) : Prop :=
  Node.EndsClosed sheet.semicolon sheet.nodes

instance (sheet : Stylesheet) : Decidable sheet.EndsClosed :=
  inferInstanceAs (Decidable (Node.EndsClosed sheet.semicolon sheet.nodes))

variable {first second : Stylesheet}

theorem print_append (hclosed : first.EndsClosed) :
    (first.append second).print = first.print ++ second.print := by
  rcases second with ⟨_ | ⟨node, rest⟩, after, semicolon⟩
  · simp [append, print, Node.printAll]
  · simp [append, print, Node.printAll_append_of_endsClosed hclosed, Node.printAll_prepend_cons]

theorem erase_append (first second : Stylesheet) :
    (first.append second).erase = first.erase.append second.erase := by
  rcases second with ⟨_ | ⟨node, rest⟩, after, semicolon⟩
  · rfl
  · simp only [append, erase, Node.eraseAll_append, Node.eraseAll, Node.erase_prepend]

theorem endsClosed_erase_iff {sheet : Stylesheet} :
    sheet.erase.EndsClosed ↔ sheet.EndsClosed := by
  simp [EndsClosed, Node.EndsClosed, erase, Node.eraseAll_eq_map, List.getLast?_map]

theorem reads_append (hclosed : first.EndsClosed) (hfirst : first.Reads)
    (hsecond : second.Reads) : (first.append second).Reads := by
  have hafter := isFiller_of_allRead hfirst
  rcases second with ⟨_ | ⟨node, rest⟩, after, semicolon⟩
  · exact Node.AllFit.congr_after hclosed (hafter.append hsecond.1) hfirst
  · obtain ⟨hnode, hrest⟩ := hsecond
    apply Node.allFit_append (List.cons_ne_nil _ _)
    · exact Node.fits_of_endsClosed hclosed hfirst
    · constructor
      · rw [Node.isClosed_prepend]
        exact Node.Reads.prepend hafter hnode
      · rw [Node.isClosed_prepend]
        exact hrest

/-- **Two texts behind one another are read as the nodes of both**, if the last node of the
    first one is closed. -/
theorem read_append {css more : Text} (hclosed : first.EndsClosed) (hfirst : read css = .ok first)
    (hsecond : read more = .ok second) : read (css ++ more) = .ok (first.append second) := by
  obtain ⟨rfl, hplain, hreads⟩ := read_eq_ok_iff.mp hfirst
  obtain ⟨rfl, hplain', hreads'⟩ := read_eq_ok_iff.mp hsecond
  refine read_eq_ok_iff.mpr ⟨print_append hclosed, ?_, reads_append hclosed hreads hreads'⟩
  rw [erase_append, hplain, hplain']

theorem exists_parse_append {css more : Text} (hclosed : first.EndsClosed)
    (hfirst : parse css = .ok first) (hsecond : parse more = .ok second) :
    ∃ sheet, parse (css ++ more) = .ok sheet ∧ sheet.erase = (first.append second).erase := by
  obtain ⟨plain, hread, rfl⟩ := parse_eq_ok_iff.mp hfirst
  obtain ⟨plain', hread', rfl⟩ := parse_eq_ok_iff.mp hsecond
  have hplain := (read_eq_ok_iff.mp hread).2.1
  rw [← endsClosed_erase_iff, erase_locate, hplain] at hclosed
  refine ⟨_, parse_eq_ok_iff.mpr ⟨_, read_append hclosed hread hread', rfl⟩, ?_⟩
  simp only [erase_append, erase_locate]

end Stylesheet

end EmScale
