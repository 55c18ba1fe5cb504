/-
  EmScale/Proofs/Sheet/RoundTrip.lean
  ===================================
  **Reading and printing are inverse to one another.**

  A tree is what reading a text gives if and only if the text is the tree printed and each of
  its nodes is one that is read at its place (`Stylesheet.read_eq_ok_iff`).  From trees to texts
  the induction is on the tree (`Stylesheet.readFrom_all`), from texts to trees on the length of
  the text, for the rest of a text behind any stack of open blocks.

  A text that is parsed is read with the places of its nodes.  They are where the text of the
  tree alone puts them (`Stylesheet.parse_eq_ok_iff`), so whatever is proved of trees without
  places carries over.
-/
import EmScale.Proofs.Sheet.Reading

namespace EmScale

namespace Stylesheet

/-! ### From texts to trees -/

/-- What reading makes of the end of the innermost block: its nodes in order and the text
    from the end of the block on are known, and the stylesheet is made of them and what is
    read behind. -/
def Completes (sheet : Stylesheet) (nodes : List Node) (semicolon : Bool) (after tail : Text) :
    List OpenBlock → Prop
  | [] => tail = [] ∧ sheet = { nodes, after, semicolon }
  | block :: blocks =>
    ∃ rest, tail = '}' :: rest ∧
      readFrom blocks (block.heading.node nodes after semicolon :: block.siblings) false rest =
        .ok sheet

section Ends

variable {blocks : List OpenBlock} {done : List Node} {closed : Bool} {source : Text}
  {sheet : Stylesheet}

theorem completes_of_finished {after : Text} (h : Piece.read source = .ok (.finished after))
    (hread : readFrom blocks done closed source = .ok sheet) :
    Completes sheet done.reverse closed after [] blocks := by
  cases blocks with
  | nil =>
    rw [readFrom_finished h] at hread
    cases hread
    exact ⟨rfl, rfl⟩
  | cons block blocks =>
    rw [readFrom_finished_inside h] at hread
    cases hread

theorem completes_of_closing {after rest : Text}
    (h : Piece.read source = .ok (.piece (.closing after) rest))
    (hread : readFrom blocks done closed source = .ok sheet) :
    Completes sheet done.reverse closed after ('}' :: rest) blocks := by
  cases blocks with
  | nil =>
    rw [readFrom_closing_outside h] at hread
    cases hread
  | cons block blocks =>
    rw [readFrom_closing h] at hread
    exact ⟨rest, rfl, hread⟩

theorem completes_of_closes {trailing : Text} {stop : Option Char}
    (hcloses : Piece.Closes source trailing stop) (hblank : trailing.IsBlank)
    (hread : readFrom blocks done closed source = .ok sheet) :
    ∃ tail, source = trailing ++ tail ∧ tail.head? = stop ∧
      Completes sheet done.reverse closed trailing tail blocks := by
  rcases Piece.read_of_closes hcloses hblank with ⟨rfl, rfl, hpiece⟩ | ⟨rfl, rest, rfl, hpiece⟩
  · exact ⟨[], (List.append_nil _).symm, rfl, completes_of_finished hpiece hread⟩
  · exact ⟨'}' :: rest, rfl, rfl, completes_of_closing hpiece hread⟩

end Ends

/-- The rest of a block that is read is the text of nodes that are read. -/
def ReadsRest (blocks : List OpenBlock) (done : List Node) (closed : Bool) (source : Text)
    (sheet : Stylesheet) : Prop :=
  ∃ nodes semicolon after tail,
    source = Node.printAll semicolon nodes ++ (after ++ tail) ∧
      Node.eraseAll nodes = nodes ∧
      Node.AllRead after tail.head? semicolon closed nodes ∧
      Completes sheet (done.reverse ++ nodes) semicolon after tail blocks

theorem isClosed_of_allRead {node : Node} {nodes : List Node} {after : Text}
    {stop : Option Char} {semicolon : Bool}
    (h : Node.AllRead after stop semicolon node.takesSemicolon nodes) :
    node.isClosed semicolon nodes = node.takesSemicolon := by
  unfold Node.isClosed
  cases nodes with
  | nil => rw [← h.2]; simp
  | cons next nodes => simp

section Cons

variable {blocks : List OpenBlock} {done : List Node} {closed : Bool} {rest : Text}
  {node : Node} {sheet : Stylesheet}

theorem readsRest_cons (node : Node) (hplain : node.erase = node)
    (hnode : ∀ after stop, node.Reads after stop node.takesSemicolon)
    (hrest : ReadsRest blocks (node :: done) node.takesSemicolon rest sheet) :
    ReadsRest blocks done closed
      (node.before ++ node.body ++ (if node.takesSemicolon then [';'] else []) ++ rest) sheet := by
  obtain ⟨nodes, semicolon, after, tail, rfl, hplains, hall, hends⟩ := hrest
  have hclosed := isClosed_of_allRead hall
  refine ⟨node :: nodes, semicolon, after, tail, ?_, ?_, ?_, ?_⟩
  · simp [Node.printAll, Node.closer, hclosed]
  · rw [Node.eraseAll, hplain, hplains]
  · rw [← hclosed] at hall
    exact ⟨hclosed ▸ hnode after tail.head?, hall⟩
  · simpa using hends

theorem readsRest_last (node : Node) {trailing : Text} {stop : Option Char}
    (hplain : node.erase = node)
    (hcloses : Piece.Closes rest trailing stop) (hblank : trailing.IsBlank)
    (hnode : node.Reads trailing stop false)
    (hread : readFrom blocks (node :: done) false rest = .ok sheet) :
    ReadsRest blocks done closed (node.before ++ node.body ++ rest) sheet := by
  obtain ⟨tail, rfl, rfl, hends⟩ := completes_of_closes hcloses hblank hread
  have hopen : node.isClosed false [] = false := by simp [Node.isClosed]
  refine ⟨[node], false, trailing, tail, ?_, ?_, ?_, ?_⟩
  · simp [Node.printAll, Node.closer, hopen]
  · rw [Node.eraseAll, hplain, Node.eraseAll]
  · exact ⟨hopen.symm ▸ hnode, hblank.isFiller, hopen⟩
  · simpa using hends

theorem readsRest_leaf {closed' : Bool} {source : Text}
    (hpiece : Piece.read source = .ok (.piece (.leaf node closed') rest))
    (hread : readFrom blocks (node :: done) closed' rest = .ok sheet)
    (hrest : ReadsRest blocks (node :: done) closed' rest sheet) :
    ReadsRest blocks done closed source sheet := by
  obtain ⟨rfl, hreads⟩ := Piece.read_eq_piece_iff.mp hpiece
  match node, closed', hreads with
  | .comment note, closed', ⟨hspan, hopen, hnote⟩ =>
    subst hopen
    exact readsRest_cons (.comment note) (by rw [Node.erase, ← hspan]) (fun _ _ => hnote) hrest
  | .atLine head, true, ⟨hbare, hhead⟩ =>
    obtain ⟨hline, -⟩ := AtRule.bare_eq_iff.mp hbare
    exact readsRest_cons (.atLine head) (by rw [Node.erase, ← hbare]; rfl)
      (fun _ _ => ⟨hline, nofun, hhead⟩) hrest
  | .declaration decl, true, ⟨hspan, hdecl⟩ =>
    exact readsRest_cons (.declaration decl) (by rw [Node.erase, ← hspan])
      (fun _ _ => ⟨nofun, hdecl⟩) hrest
  | .atLine head, false, ⟨hbare, hbetween, trailing, stop, hcloses, hhead⟩ =>
    obtain ⟨hline, -⟩ := AtRule.bare_eq_iff.mp hbare
    have hlast : ReadsRest blocks done closed _ sheet :=
      readsRest_last (.atLine head) (by rw [Node.erase, ← hbare]; rfl) hcloses
        hhead.statement.blank ⟨hline, fun _ => hbetween, hhead⟩ hread
    simpa [Piece.print] using hlast
  | .declaration decl, false, ⟨hspan, hafter, trailing, stop, hcloses, hdecl⟩ =>
    have hlast : ReadsRest blocks done closed _ sheet :=
      readsRest_last (.declaration decl) (by rw [Node.erase, ← hspan]) hcloses
        hdecl.statement.blank ⟨fun _ => hafter, hdecl⟩ hread
    simpa [Piece.print] using hlast

theorem readsRest_block {heading : Heading} {start brace : Text} {source : Text}
    (hpiece : Piece.read source = .ok (.piece (.opening heading) rest))
    (hinside : ReadsRest (⟨heading, start, brace, done⟩ :: blocks) [] false rest sheet)
    (hbehind : ∀ {node behind}, behind.length < source.length →
      readFrom blocks (node :: done) false behind = .ok sheet →
        ReadsRest blocks (node :: done) false behind sheet) :
    ReadsRest blocks done closed source sheet := by
  obtain ⟨rfl, hreads⟩ := Piece.read_eq_piece_iff.mp hpiece
  obtain ⟨children, semicolon, after, tail, rfl, hplains, hall, behind, rfl, hread⟩ := hinside
  have hrest := hbehind (by simp [Piece.print]; omega) hread
  rw [List.reverse_nil, List.nil_append] at hrest
  cases heading with
  | rule head =>
    obtain ⟨hbare, hhead⟩ := hreads
    have hnode : ReadsRest blocks done closed _ sheet :=
      readsRest_cons ((Heading.rule head).node children after semicolon)
        (by simp only [Heading.node, Node.erase, hplains])
        (fun _ _ => ⟨⟨hhead.before, hhead.opens, hhead.statement⟩, hall⟩) hrest
    simpa [Piece.print, Heading.node, Heading.before, Heading.print, Node.before, Node.body,
      Node.takesSemicolon] using hnode
  | atRule head =>
    obtain ⟨hbare, hhead⟩ := hreads
    have hnode : ReadsRest blocks done closed _ sheet :=
      readsRest_cons ((Heading.atRule head).node children after semicolon)
        (by simp only [Heading.node, Node.erase, hplains])
        (fun _ _ => ⟨⟨⟨hhead.before, hhead.named, hhead.name, hhead.afterName, hhead.params,
          hhead.statement⟩, hhead.separated⟩, hall⟩) hrest
    simpa [Piece.print, Heading.node, Heading.before, Heading.print, AtRule.print, Node.before,
      Node.body, Node.takesSemicolon] using hnode

end Cons

/-- **What is read is the text of a tree that is read.** -/
theorem readsRest_of_readFrom {blocks : List OpenBlock} {done : List Node} {closed : Bool}
    {source : Text} {sheet : Stylesheet}
    (hread : readFrom blocks done closed source = .ok sheet) :
    ReadsRest blocks done closed source sheet := by
  rcases hpiece : Piece.read source with fault | reading
  · rw [readFrom_of_error hpiece] at hread
    cases hread
  rcases reading with ⟨piece, rest⟩ | after
  · have hshorter := Piece.length_lt_of_read hpiece
    cases piece with
    | leaf node closed' =>
      rw [readFrom_leaf hpiece] at hread
      exact readsRest_leaf hpiece hread (readsRest_of_readFrom hread)
    | opening heading =>
      rw [readFrom_opening hpiece] at hread
      -- Once for the children, up to the closing brace, and once for what follows it.
      exact readsRest_block hpiece (readsRest_of_readFrom hread)
        fun hbehind hread => readsRest_of_readFrom hread
    | closing after =>
      obtain ⟨rfl, hafter⟩ := Piece.read_eq_piece_iff.mp hpiece
      refine ⟨[], closed, after, '}' :: rest, ?_, rfl, ⟨hafter, rfl⟩, ?_⟩
      · simp [Node.printAll, Piece.print]
      · simpa using completes_of_closing hpiece hread
  · obtain ⟨rfl, hafter⟩ := Piece.read_eq_finished_iff.mp hpiece
    refine ⟨[], closed, source, [], ?_, rfl, ⟨hafter, rfl⟩, ?_⟩
    · simp [Node.printAll]
    · simpa using completes_of_finished hpiece hread
termination_by source.length

/-! ### Both ways -/

/-- A tree whose nodes are read at their places is read from its own text, with the places that
    are noted on the way. -/
theorem read_print_of_reads (place : Text → Position) {sheet : Stylesheet}
    (hplain : sheet.erase = sheet) (hall : sheet.Reads) :
    read sheet.print place =
      .ok { sheet with nodes := Node.notedAll place sheet.semicolon sheet.after sheet.nodes } := by
  have hplain : Node.eraseAll sheet.nodes = sheet.nodes := congrArg Stylesheet.nodes hplain
  have hafter : Piece.read sheet.after = .ok (.finished sheet.after) :=
    Piece.read_eq_finished_iff.mpr ⟨rfl, isFiller_of_allRead hall⟩
  rw [read_eq_readFrom, print, readFrom_all _ [] (Piece.closes_end _) [] hall hplain,
    readFrom_finished (Piece.read_place_ok place hafter)]
  simp

/-- **A tree is what reading a text gives if and only if the text is the tree printed** and
    every node of the tree is one that is read at its place. -/
theorem read_eq_ok_iff {source : Text} {sheet : Stylesheet} :
    read source = .ok sheet ↔ sheet.print = source ∧ sheet.erase = sheet ∧ sheet.Reads := by
  constructor
  · intro hread
    obtain ⟨nodes, semicolon, after, tail, rfl, hplain, hall, rfl, rfl⟩ :=
      readsRest_of_readFrom hread
    refine ⟨?_, ?_, hall⟩
    · simp [print]
    · simp [erase, hplain]
  · rintro ⟨rfl, hplain, hall⟩
    rw [read_print_of_reads _ hplain hall, Node.notedAll_nowhere]
    exact congrArg Except.ok hplain

/-! ### Places -/

/-- **The places that are noted are those of the text of the tree.** -/
theorem read_before_of_read {source : Text} {plain : Stylesheet} (h : read source = .ok plain) :
    read source (Position.before source) = .ok plain.locate := by
  obtain ⟨rfl, hplain, hall⟩ := read_eq_ok_iff.mp h
  have hprint : plain.print = [] ++ (Node.printAll plain.semicolon plain.nodes ++ plain.after) :=
    rfl
  rw [read_print_of_reads _ hplain hall,
    Node.notedAll_before (Piece.closes_end _) hall hprint]
  rfl

/-- **What parsing gives**, by the tree that is read without places. -/
theorem parse_eq_read (source : Text) :
    parse source = match read source with
      | .error fault => .error (fault.locate source)
      | .ok plain => .ok plain.locate := by
  unfold parse
  cases hread : read source with
  | error fault => rw [read_eq_error_iff.mpr (read_eq_error_iff.mp hread)]
  | ok plain => rw [read_before_of_read hread]

/-- **A text is parsed as the tree that is read, with the places that its text gives it.** -/
theorem parse_eq_ok_iff {source : Text} {sheet : Stylesheet} :
    parse source = .ok sheet ↔ ∃ plain, read source = .ok plain ∧ plain.locate = sheet := by
  rw [parse_eq_read]
  cases read source <;> simp

theorem parse_eq_error_iff {source : Text} {error : ParseError} :
    parse source = .error error ↔
      ∃ fault, read source = .error fault ∧ fault.locate source = error := by
  rw [parse_eq_read]
  cases read source <;> simp

/-! ### Printing -/

/-- **Nothing is lost.**  A stylesheet that is parsed is printed as the text it was parsed
    from. -/
theorem print_of_parse {css : Text} {sheet : Stylesheet} (h : parse css = .ok sheet) :
    sheet.print = css := by
  obtain ⟨plain, hread, rfl⟩ := parse_eq_ok_iff.mp h
  rw [print_eq_of_erase_eq plain.erase_locate]
  exact (read_eq_ok_iff.mp hread).1

theorem print_of_parse_nested :
    ∃ sheet, parse "@media (a;b) \x7b;p\x7bq : '\x7d' ;/*;*/r:\\; \x7d \x7d".toList = .ok sheet ∧
      sheet.print = "@media (a;b) \x7b;p\x7bq : '\x7d' ;/*;*/r:\\; \x7d \x7d".toList := by
  have hread : read "@media (a;b) \x7b;p\x7bq : '\x7d' ;/*;*/r:\\; \x7d \x7d".toList = .ok {
      nodes := [.atBlock
        { name := "media".toList, params := "(a;b)".toList, afterName := [' '],
          raws := { between := [' '], after := [' '] } }
        [.rule { selector := ['p'], raws := { before := [';'], after := [' '] } }
          [.declaration
            { prop := ['q'], value := "'\x7d'".toList, between := " : ".toList, after := [' '] },
            .comment { text := [';'] },
            .declaration { prop := ['r'], value := "\\;".toList, between := [':'] }]]] } := by
    cbv
  have h := parse_eq_ok_iff.mpr ⟨_, hread, rfl⟩
  exact ⟨_, h, print_of_parse h⟩

end Stylesheet

end EmScale
