/-
  EmScale/Proofs/Sheet/Layout.lean
  ================================
  **The span of a node marks its own text.**

  In a tree that was parsed the span of a node starts where its text starts and ends behind
  it, except that it may go on over the blanks or the one semicolon behind the node
  (`Node.IsPlaced`).  The spans of the nodes of a block stand in order, with blanks and
  semicolons between them, inside the span of the node around them
  (`Stylesheet.isPlaced_of_parse`).

  Spans are laid over a tree from the front, so the induction is on the tree.  What it
  carries is the text in front of a block: the block is printed there, and the blanks behind
  its last node follow it.
-/
import EmScale.Proofs.Cursor
import EmScale.Proofs.Sheet.Reread

namespace EmScale

open Text (IsBlank)

/-! ### Places of nodes -/

namespace Node

def span : Node → Span
  | rule head _ => head.span
  | atBlock head _ | atLine head => head.span
  | declaration decl => decl.span
  | comment note => note.span

/-- The spans of the nodes of a block do not meet, and nothing but blanks and semicolons stands
    between them. -/
structure AreApart (source : Text) (nodes : List Node) : Prop where
  ordered : nodes.Pairwise fun node later => node.span.stop.byte ≤ later.span.start.byte
  gaps : nodes.IsChain fun node next =>
    ∃ gap : Text, gap.IsFiller ∧ Span.Covers source ⟨node.span.stop, next.span.start⟩ gap

/-- A node whose span marks its own text and goes around the spans of its children. -/
structure IsPlaced (source : Text) (node : Node) : Prop where
  own : ∃ tail : Text, (tail.IsBlank ∨ tail = [';']) ∧
    node.span.Covers source (node.body ++ tail)
  children : AreApart source node.children
  inside : ∀ child ∈ node.children, child.span.IsWithin node.span

end Node

/-- A stylesheet whose nodes, at any depth, are marked by their spans in `source`. -/
structure Stylesheet.IsPlaced (source : Text) (sheet : Stylesheet) : Prop where
  nodes : Node.AreApart source sheet.nodes
  allNodes : ∀ node ∈ sheet.allNodes, node.IsPlaced source

namespace Node

/-! ### What follows a node -/

/-- Where another node follows, a span ends with the node or behind its semicolon. -/
theorem exists_closer_eq {node next : Node} {semicolon : Bool} {rest : List Node}
    (after : Text) :
    ∃ gap : Text, gap.IsFiller ∧
      node.closer semicolon (next :: rest) =
        node.tail (node.isClosed semicolon (next :: rest)) after ++ gap := by
  have hsemicolon : Text.IsFiller [';'] := by decide
  cases node with
  | atLine head => exact ⟨[], by decide, by simp [closer, isClosed, takesSemicolon, tail]⟩
  | declaration decl =>
    exact ⟨[';'], hsemicolon, by simp [closer, isClosed, takesSemicolon, tail]⟩
  | _ => exact ⟨[], by decide, by simp [closer, isClosed, takesSemicolon, tail]⟩

/-- Behind the last node, a span ends no later than the blanks behind it. -/
theorem exists_closer_append_eq (node : Node) (semicolon : Bool) (after : Text) :
    ∃ gap : Text,
      node.closer semicolon [] ++ after = node.tail (node.isClosed semicolon []) after ++ gap := by
  cases node with
  | atLine head =>
    cases semicolon with
    | true => exact ⟨after, by simp [closer, isClosed, takesSemicolon, tail]⟩
    | false => exact ⟨[], by simp [closer, isClosed, takesSemicolon, tail]⟩
  | declaration decl =>
    cases semicolon with
    | true => exact ⟨';' :: after, by simp [closer, isClosed, takesSemicolon, tail]⟩
    | false => exact ⟨[], by simp [closer, isClosed, takesSemicolon, tail]⟩
  | _ => exact ⟨after, by simp [closer, isClosed, takesSemicolon, tail]⟩

theorem isBlank_tail_or {node : Node} {after : Text} {stop : Option Char} {closed : Bool}
    (h : node.Reads after stop closed) :
    (node.tail closed after).IsBlank ∨ node.tail closed after = [';'] := by
  match node, closed, h with
  | .atLine head, true, _ => exact Or.inr rfl
  | .atLine head, false, ⟨_, _, hhead⟩ => exact Or.inl hhead.statement.blank
  | .declaration decl, true, _ => exact Or.inl Text.isBlank_nil
  | .declaration decl, false, ⟨_, hdecl⟩ => exact Or.inl hdecl.statement.blank
  | .rule _ _, _, _ => exact Or.inl Text.isBlank_nil
  | .atBlock _ _, _, _ => exact Or.inl Text.isBlank_nil
  | .comment _, _, _ => exact Or.inl Text.isBlank_nil

theorem isFiller_before {node : Node} {after : Text} {stop : Option Char} {closed : Bool}
    (h : node.Reads after stop closed) : node.before.IsFiller := by
  match node, h with
  | .rule _ _, ⟨hhead, _⟩ => exact hhead.before
  | .atBlock _ _, ⟨hhead, _⟩ => exact hhead.before
  | .atLine _, ⟨_, _, hhead⟩ => exact hhead.before
  | .declaration _, ⟨_, hdecl⟩ => exact hdecl.before
  | .comment _, hnote => exact hnote.before

/-! ### Laying spans -/

theorem span_locate (start : Position) (tail : Text) (node : Node) :
    (node.locate start tail).1.span = ⟨start, (start.after node.body).after tail⟩ := by
  have hbehind := node.locate_snd start tail
  cases node with
  | rule head children => exact congrArg (fun p => (⟨start, p.after tail⟩ : Span)) hbehind
  | atBlock head children => exact congrArg (fun p => (⟨start, p.after tail⟩ : Span)) hbehind
  | atLine head => rfl
  | declaration decl => rfl
  | comment note => rfl

theorem body_locate (start : Position) (tail : Text) (node : Node) :
    (node.locate start tail).1.body = node.body := by
  rw [← body_erase, erase_locate, body_erase]

/-- **The span that is laid over a node marks its text** and what it covers behind it. -/
theorem covers_locate {source front tail back : Text} {node : Node}
    (hsource : source = front ++ (node.body ++ (tail ++ back))) :
    (node.locate (.behind front) tail).1.span.Covers source
      ((node.locate (.behind front) tail).1.body ++ tail) := by
  refine ⟨front, back, ?_, ?_⟩
  · rw [body_locate, hsource, List.append_assoc]
  · rw [body_locate, span_locate, Position.after_behind, Position.after_behind,
      List.append_assoc]

/-- A block whose nodes are marked by their spans, all of them from the place `low` up to the
    place `high`. -/
structure AreLaid (source low high : Text) (nodes : List Node) : Prop where
  apart : AreApart source nodes
  inner : ∀ inner ∈ preorderAll nodes, inner.IsPlaced source
  within : ∀ node ∈ nodes, node.span.IsWithin ⟨.behind low, .behind high⟩

theorem areLaid_nil (source low high : Text) : AreLaid source low high [] :=
  ⟨⟨.nil, .nil⟩, nofun, nofun⟩

section Cons

variable {source front before tail gap high : Text} {node : Node} {rest : List Node}

/-- **A node is laid in front of a block that is laid.**  The text `gap` stands between what the
    span of the node covers and the block. -/
theorem AreLaid.cons
    (hinner : ∀ inner ∈ (node.locate (.behind (front ++ before)) tail).1.preorder,
      inner.IsPlaced source)
    (hnext : ∀ next ∈ rest.head?, ∃ blank : Text, blank.IsFiller ∧
      Span.Covers source
        ⟨.behind (front ++ before ++ node.body ++ tail), next.span.start⟩ blank)
    (hhigh : (front ++ before ++ node.body ++ tail).byteSize ≤ high.byteSize)
    (hrest : AreLaid source (front ++ before ++ node.body ++ tail ++ gap) high rest) :
    AreLaid source front high ((node.locate (.behind (front ++ before)) tail).1 :: rest) := by
  have hspan : (node.locate (.behind (front ++ before)) tail).1.span =
      ⟨.behind (front ++ before), .behind (front ++ before ++ node.body ++ tail)⟩ := by
    rw [span_locate, Position.after_behind, Position.after_behind]
  have hbehind : ∀ later ∈ rest,
      (front ++ before ++ node.body ++ tail).byteSize ≤ later.span.start.byte := by
    intro later hlater
    have hlow := (hrest.within later hlater).1
    rw [Position.byte_behind, Text.byteSize_append] at hlow
    omega
  constructor
  · constructor
    · refine List.pairwise_cons.mpr ⟨?_, hrest.apart.ordered⟩
      intro later hlater
      rw [hspan]
      exact hbehind later hlater
    · cases rest with
      | nil => exact .singleton _
      | cons next rest =>
        refine List.isChain_cons_cons.mpr ⟨?_, hrest.apart.gaps⟩
        rw [hspan]
        exact hnext next rfl
  · rw [preorderAll, List.forall_mem_append]
    exact ⟨hinner, hrest.inner⟩
  · intro inner hmem
    rcases List.mem_cons.mp hmem with rfl | hmem
    · rw [hspan]
      exact ⟨by simp, hhigh⟩
    · refine ⟨?_, (hrest.within inner hmem).2⟩
      have hlater := hbehind inner hmem
      simp only [Position.byte_behind, Text.byteSize_append] at hlater ⊢
      omega

end Cons

theorem preorder_eq_cons (node : Node) : node.preorder = node :: preorderAll node.children := by
  cases node <;> rfl

/-- A node around children that are laid inside its span. -/
theorem AreLaid.isPlaced {source low high : Text} {node : Node}
    (hown : ∃ tail : Text, (tail.IsBlank ∨ tail = [';']) ∧
      node.span.Covers source (node.body ++ tail))
    (hlow : node.span.start.byte ≤ low.byteSize) (hhigh : high.byteSize ≤ node.span.stop.byte)
    (h : AreLaid source low high node.children) :
    ∀ inner ∈ node.preorder, inner.IsPlaced source := by
  rw [preorder_eq_cons, List.forall_mem_cons]
  refine ⟨⟨hown, h.apart, ?_⟩, h.inner⟩
  intro child hchild
  obtain ⟨hstart, hstop⟩ := h.within child hchild
  exact ⟨hlow.trans hstart, hstop.trans hhigh⟩

section Whole

variable {source front tail back : Text} {node : Node} (htail : tail.IsBlank ∨ tail = [';'])
  (hsource : source = front ++ (node.body ++ (tail ++ back)))

include htail hsource

theorem isPlaced_leaf (hnone : (node.locate (.behind front) tail).1.children = []) :
    ∀ inner ∈ (node.locate (.behind front) tail).1.preorder, inner.IsPlaced source := by
  have hown := covers_locate hsource
  have hlaid : AreLaid source front front (node.locate (.behind front) tail).1.children := by
    rw [hnone]
    exact areLaid_nil source front front
  have hstart : (node.locate (.behind front) tail).1.span.start.byte = front.byteSize := by
    rw [span_locate]
    rfl
  apply hlaid.isPlaced ⟨tail, htail, hown⟩
  · exact hstart.le
  · rw [← hstart]
    exact hown.start_le_stop

/-- A node with a block whose children are laid behind the text `opening`. -/
theorem isPlaced_block {opening after : Text} {semicolon : Bool} {children : List Node}
    (hbody : node.body = opening ++ (printAll semicolon children ++ (after ++ ['}'])))
    (hchildren : (node.locate (.behind front) tail).1.children =
      (locateAll (.behind (front ++ opening)) semicolon after children).1)
    (hlaid : AreLaid source (front ++ opening)
      (front ++ opening ++ (printAll semicolon children ++ after))
      (locateAll (.behind (front ++ opening)) semicolon after children).1) :
    ∀ inner ∈ (node.locate (.behind front) tail).1.preorder, inner.IsPlaced source := by
  rw [← hchildren] at hlaid
  apply hlaid.isPlaced ⟨tail, htail, covers_locate hsource⟩
  · rw [span_locate]
    simp
  · rw [span_locate, Position.after_behind, Position.after_behind, hbody]
    simp only [Position.byte_behind, Text.byteSize_append]
    omega

end Whole

theorem span_start_locateAll (front after : Text) (semicolon : Bool) (next : Node)
    (rest : List Node) :
    ∀ first ∈ (locateAll (.behind front) semicolon after (next :: rest)).1.head?,
      first.span.start = .behind (front ++ next.before) := by
  intro first hfirst
  rw [locateAll] at hfirst
  cases hfirst
  rw [span_locate, Position.after_behind]

theorem locateAll_cons (front after : Text) (semicolon : Bool) (node : Node) (rest : List Node) :
    (locateAll (.behind front) semicolon after (node :: rest)).1 =
      (node.locate (.behind (front ++ node.before))
        (node.tail (node.isClosed semicolon rest) after)).1 ::
      (locateAll (.behind (front ++ node.before ++ node.body ++ node.closer semicolon rest))
        semicolon after rest).1 := by
  rw [locateAll, Position.after_behind]
  dsimp only
  rw [locate_snd, Position.after_behind, Position.after_behind]

mutual

/-- **The spans laid over a node and over all nodes in it mark their texts.** -/
theorem isPlaced_locate {source : Text} :
    ∀ {node : Node} {after : Text} {stop : Option Char} {closed : Bool} (front tail back : Text),
      node.Reads after stop closed → tail.IsBlank ∨ tail = [';'] →
      source = front ++ (node.body ++ (tail ++ back)) →
      ∀ inner ∈ (node.locate (.behind front) tail).1.preorder, inner.IsPlaced source
  | .rule head children, _, _, _, front, tail, back, ⟨_, hchildren⟩, htail, hsource => by
    let opening := head.selector ++ head.raws.between ++ ['{']
    have hblock : source = front ++ opening ++ (printAll head.raws.semicolon children ++
        (head.raws.after ++ '}' :: (tail ++ back))) := by
      rw [hsource]
      simp [opening, body]
    apply isPlaced_block htail hsource _ _ (areLaid_locateAll (front ++ opening) _ hchildren hblock)
    · simp [opening, body]
    · rw [← Position.after_behind]
      rfl
  | .atBlock head children, _, _, _, front, tail, back, ⟨_, hchildren⟩, htail, hsource => by
    let opening := head.print ++ ['{']
    have hblock : source = front ++ opening ++ (printAll head.raws.semicolon children ++
        (head.raws.after ++ '}' :: (tail ++ back))) := by
      rw [hsource]
      simp [opening, body]
    apply isPlaced_block htail hsource _ _ (areLaid_locateAll (front ++ opening) _ hchildren hblock)
    · simp [opening, body]
    · rw [← Position.after_behind]
      rfl
  | .atLine _, _, _, _, _, _, _, _, htail, hsource => isPlaced_leaf htail hsource rfl
  | .declaration _, _, _, _, _, _, _, _, htail, hsource => isPlaced_leaf htail hsource rfl
  | .comment _, _, _, _, _, _, _, _, htail, hsource => isPlaced_leaf htail hsource rfl

/-- **The spans laid over a block** mark the texts of its nodes and stand in order. -/
theorem areLaid_locateAll {source after : Text} {stop : Option Char} {semicolon : Bool} :
    ∀ {nodes : List Node} {closed : Bool} (front back : Text),
      AllRead after stop semicolon closed nodes →
      source = front ++ (printAll semicolon nodes ++ (after ++ back)) →
      AreLaid source front (front ++ (printAll semicolon nodes ++ after))
        (locateAll (.behind front) semicolon after nodes).1
  | [], _, _, _, _, _ => areLaid_nil _ _ _
  | [node], _, front, back, ⟨hnode, _⟩, hsource => by
    obtain ⟨gap, hgap⟩ := exists_closer_append_eq node semicolon after
    have htail := isBlank_tail_or hnode
    rw [locateAll_cons]
    generalize node.tail (node.isClosed semicolon []) after = tail at *
    have hwhole : front ++ (printAll semicolon [node] ++ (after ++ back)) =
        front ++ node.before ++ (node.body ++ (tail ++ (gap ++ back))) := by
      rw [← List.append_assoc tail, ← hgap]
      simp [printAll]
    have hplaced := isPlaced_locate (front ++ node.before) tail (gap ++ back) hnode htail
      (hsource.trans hwhole)
    apply AreLaid.cons hplaced
    · intro next hnext
      cases hnext
    · have hsize := congrArg Text.byteSize hgap
      simp only [printAll, Text.byteSize_append, Text.byteSize_nil] at hsize ⊢
      omega
    · exact areLaid_nil _ (_ ++ gap) _
  | node :: next :: rest, _, front, back, ⟨hnode, hrest⟩, hsource => by
    obtain ⟨gap, hfiller, hgap⟩ := @exists_closer_eq node next semicolon rest after
    have htail := isBlank_tail_or hnode
    have hlaid := areLaid_locateAll
      (front ++ node.before ++ node.body ++ node.closer semicolon (next :: rest)) back hrest
      (hsource.trans (by simp [printAll]))
    have hstart := span_start_locateAll
      (front ++ node.before ++ node.body ++ node.closer semicolon (next :: rest)) after semicolon
      next rest
    rw [locateAll_cons]
    generalize node.tail (node.isClosed semicolon (next :: rest)) after = tail at *
    have htext : printAll semicolon (node :: next :: rest) =
        node.before ++ node.body ++ tail ++ gap ++ printAll semicolon (next :: rest) := by
      rw [printAll, hgap]
      simp
    rw [hgap, ← List.append_assoc _ tail gap] at hlaid hstart ⊢
    rw [htext] at hsource ⊢
    have hplaced := isPlaced_locate (front ++ node.before) tail
      (gap ++ (printAll semicolon (next :: rest) ++ (after ++ back))) hnode htail
      (hsource.trans (by simp))
    apply AreLaid.cons hplaced _ _ (by simpa using hlaid)
    · intro first hfirst
      have hbefore := isFiller_before hrest.1
      rw [hstart first hfirst, List.append_assoc _ gap]
      have hwhole : source = front ++ node.before ++ node.body ++ tail ++
          (gap ++ next.before ++ (next.body ++ next.closer semicolon rest ++
            printAll semicolon rest ++ (after ++ back))) := by
        rw [hsource, printAll]
        simp
      exact ⟨gap ++ next.before, hfiller.append hbefore, Span.covers_behind hwhole⟩
    · simp only [Text.byteSize_append]
      omega

end

end Node

namespace Stylesheet

/-- **Every span of a parsed stylesheet marks the text of its node.** -/
theorem isPlaced_of_parse {css : Text} {sheet : Stylesheet} (h : parse css = .ok sheet) :
    sheet.IsPlaced css := by
  obtain ⟨plain, hread, rfl⟩ := parse_eq_ok_iff.mp h
  obtain ⟨hprint, -, hreads⟩ := read_eq_ok_iff.mp hread
  have hsource : css =
      [] ++ (Node.printAll plain.semicolon plain.nodes ++ (plain.after ++ [])) := by
    rw [← hprint, print]
    simp
  have hlaid := Node.areLaid_locateAll [] [] hreads hsource
  exact ⟨hlaid.apart, hlaid.inner⟩

/-- Two bytes in one character, a line feed, a semicolon inside a span and one behind a span, and
    a blank that the last declaration covers. -/
theorem isPlaced_of_parse_lines :
    ∃ sheet, parse "@i é;\np\x7bq:'ü' ;r:s \x7d ".toList = .ok sheet ∧
      sheet.allNodes.map Node.span =
        [⟨⟨0, 0, 0⟩, ⟨6, 0, 5⟩⟩, ⟨⟨7, 1, 0⟩, ⟨22, 1, 14⟩⟩, ⟨⟨9, 1, 2⟩, ⟨16, 1, 8⟩⟩,
          ⟨⟨17, 1, 9⟩, ⟨21, 1, 13⟩⟩] ∧
      sheet.IsPlaced "@i é;\np\x7bq:'ü' ;r:s \x7d ".toList := by
  let plain : Stylesheet := {
    nodes := [
      .atLine { name := ['i'], params := ['é'], afterName := [' '] },
      .rule { selector := ['p'], raws := { before := ['\n'], after := [' '] } }
        [.declaration
            { prop := ['q'], value := "'ü'".toList, between := [':'], after := [' '] },
          .declaration { prop := ['r'], value := ['s'], between := [':'] }]],
    after := [' '] }
  have hread : read "@i é;\np\x7bq:'ü' ;r:s \x7d ".toList = .ok plain := by
    cbv
  have h := parse_eq_ok_iff.mpr ⟨plain, hread, rfl⟩
  exact ⟨plain.locate, h, by decide +kernel, isPlaced_of_parse h⟩

end Stylesheet

end EmScale
