/-
  EmScale/Proofs/Sheet/Reading.lean
  =================================
  **What is read from the text of a tree.**

  Not every tree is read from a text: a declaration that no semicolon closes must be the
  last of its block, no value may close the parenthesis of another one, and so on.
  `Stylesheet.Reads` collects what has to hold at each node of a tree, in terms of its own
  texts and of what follows it.

  Reading keeps open blocks on a stack, so that such a tree is read from its own text is stated
  for the rest of a text behind any stack (`Stylesheet.readFrom_all`), by induction on the tree.
  The nodes come with the places that are noted while they are read.  A place is noted as the
  text ahead of it, so in front of a given text they are known beforehand (`Node.noted`).
-/
import EmScale.Proofs.Cursor
import EmScale.Proofs.Sheet.Piece
import EmScale.Proofs.Sheet.Span

namespace EmScale

open Unicode (isWhiteSpace)

/-! ### Trees that are read -/

mutual

/-- A node that has its shape at its place, where the heads of at-rules are asked for `Q`.
    Where no semicolon closes it, the blanks `after` and the character `stop` follow it. -/
def Node.Fits (Q : AtRule → Text → Option Char → Prop) (after : Text) (stop : Option Char)
    (closed : Bool) : Node → Prop
  | .rule head children =>
    head.Reads ∧ Node.AllFit Q head.raws.after (some '}') head.raws.semicolon false children
  | .atBlock head children =>
    Q head head.raws.between (some '{') ∧
      Node.AllFit Q head.raws.after (some '}') head.raws.semicolon false children
  | .atLine head =>
    (head.raws.after = [] ∧ head.raws.semicolon = false) ∧
      (closed = false → head.raws.between = []) ∧
        Q head (if closed then head.raws.between else after) (if closed then some ';' else stop)
  | .declaration decl =>
    (closed = false → decl.after = []) ∧
      decl.Reads (if closed then decl.after else after) (if closed then some ';' else stop)
  | .comment note => note.Reads

/-- The nodes of a block that have their shape at their places.  `after` and `stop` are what
    follows the last of them, `semicolon` tells whether a semicolon closes it, and `closed`
    whether one closes the node in front of the first. -/
def Node.AllFit (Q : AtRule → Text → Option Char → Prop) (after : Text) (stop : Option Char)
    (semicolon closed : Bool) : List Node → Prop
  | [] => after.IsFiller ∧ closed = semicolon
  | node :: rest =>
    node.Fits Q after stop (node.isClosed semicolon rest) ∧
      Node.AllFit Q after stop semicolon (node.isClosed semicolon rest) rest

end

/-- A node that is read at its place. -/
abbrev Node.Reads : Text → Option Char → Bool → Node → Prop :=
  Node.Fits AtRule.Reads

/-- The nodes of a block that are read at their places. -/
abbrev Node.AllRead : Text → Option Char → Bool → Bool → List Node → Prop :=
  Node.AllFit AtRule.Reads

/-- A stylesheet that is read from its own text. -/
def Stylesheet.Reads (sheet : Stylesheet) : Prop :=
  Node.AllRead sheet.after none sheet.semicolon false sheet.nodes

/-- The head of a block that is read. -/
def Heading.Reads : Heading → Prop
  | rule head => head.bare = head ∧ head.Reads
  | atRule head => head.bare = head ∧ head.Reads head.raws.between (some '{')

theorem Rule.reads_bare {head : Rule} : head.bare.Reads ↔ head.Reads :=
  ⟨fun h => ⟨h.before, h.opens, h.statement⟩, fun h => ⟨h.before, h.opens, h.statement⟩⟩

theorem AtRule.reads_bare {head : AtRule} {trailing : Text} {stop : Option Char} :
    head.bare.Reads trailing stop ↔ head.Reads trailing stop :=
  ⟨fun h => ⟨⟨h.before, h.named, h.name, h.afterName, h.params, h.statement⟩, h.separated⟩,
    fun h => ⟨⟨h.before, h.named, h.name, h.afterName, h.params, h.statement⟩, h.separated⟩⟩

/-- The head of an at-rule without a block has nothing of one, and has no place before it is
    read. -/
theorem AtRule.bare_eq_iff {head : AtRule} :
    head.bare = head ↔
      (head.raws.after = [] ∧ head.raws.semicolon = false) ∧ head.span = {} := by
  rcases head with ⟨name, params, afterName, ⟨before, between, after, semicolon⟩, span⟩
  simp [AtRule.bare, eq_comm]

/-! ### Places that are noted -/

/-- A node with another span. -/
def Node.withSpan (span : Span) : Node → Node
  | .rule head children => .rule { head with span } children
  | .atBlock head children => .atBlock { head with span } children
  | .atLine head => .atLine { head with span }
  | .declaration decl => .declaration { decl with span }
  | .comment note => .comment { note with span }

/-- The text ahead of the end of a node's span, where `rest` follows the node and the semicolon
    that closes it. -/
def Node.stop (closed : Bool) (rest : Text) : Node → Text
  | .declaration _ => if closed then ';' :: rest else rest.dropWhile isWhiteSpace
  | .atLine _ => if closed then rest else rest.dropWhile isWhiteSpace
  | .rule .. | .atBlock .. | .comment _ => rest

/-- The span that is noted for a node. -/
def Node.extent (place : Text → Position) (closed : Bool) (rest : Text) (node : Node) : Span :=
  ⟨place (node.body ++ (if closed then [';'] else []) ++ rest), place (node.stop closed rest)⟩

mutual

/-- A node with the spans that are noted for it and all nodes in it. -/
def Node.noted (place : Text → Position) (closed : Bool) (rest : Text) : Node → Node
  | .rule head children =>
    .rule { head with span := (Node.rule head children).extent place closed rest }
      (Node.notedAll place head.raws.semicolon (head.raws.after ++ '}' :: rest) children)
  | .atBlock head children =>
    .atBlock { head with span := (Node.atBlock head children).extent place closed rest }
      (Node.notedAll place head.raws.semicolon (head.raws.after ++ '}' :: rest) children)
  | .atLine head => .atLine { head with span := (Node.atLine head).extent place closed rest }
  | .declaration decl =>
    .declaration { decl with span := (Node.declaration decl).extent place closed rest }
  | .comment note => .comment { note with span := (Node.comment note).extent place closed rest }

/-- The nodes of a block with the spans that are noted for them, where `rest` follows. -/
def Node.notedAll (place : Text → Position) (semicolon : Bool) (rest : Text) :
    List Node → List Node
  | [] => []
  | node :: nodes =>
    node.noted place (node.isClosed semicolon nodes) (Node.printAll semicolon nodes ++ rest) ::
      Node.notedAll place semicolon rest nodes

end

namespace Piece

def before : Piece → Text
  | leaf node _ => node.before
  | opening heading => heading.before
  | closing after => after

/-- A piece with the span that is noted for it, which heads of blocks have not yet. -/
def noted (place : Text → Position) (start rest : Text) : Piece → Piece
  | leaf node closed => leaf (node.withSpan ⟨place start, place (node.stop closed rest)⟩) closed
  | opening heading => opening heading
  | closing after => closing after

end Piece

def Reading.noted (place : Text → Position) (start : Text) : Reading → Reading
  | piece part rest => .piece (part.noted place start rest) rest
  | finished after => .finished after

namespace Piece

section Places

variable (place : Text → Position)

theorem readComment_place (before source : Text) :
    readComment before source place =
      (readComment before source).map (Reading.noted place ('/' :: '*' :: source)) := by
  unfold readComment
  dsimp only
  split <;> rfl

/-- Behind the blanks that are left to the block comes what ends the statement. -/
theorem dropWhile_stop {source : Text} {statement : Statement}
    (h : Statement.read source = .ok statement) :
    (statement.trailing ++ statement.stop).dropWhile isWhiteSpace = statement.stop := by
  have hdelimits := (Statement.read_eq_ok_iff.mp h).2
  have hoff := startsOff_of_stop (p := isWhiteSpace) (stop_of_endsAt hdelimits.ends) (by decide)
  exact (Text.takeWhile_append_of_startsOff hdelimits.blank hoff).2

theorem readAtRule_place (before source : Text) :
    readAtRule before source place =
      (readAtRule before source).map (Reading.noted place ('@' :: source)) := by
  unfold readAtRule
  simp only [bind, Except.bind, pure, Except.pure, throw, throwThe, MonadExceptOf.throw]
  split
  · rfl
  · cases hread : Statement.read ((source.dropWhile isNameCharacter).dropWhile isWhiteSpace) with
    | error fault => rfl
    | ok statement =>
      have hstop := dropWhile_stop hread
      rcases statement with ⟨text, trailing, stop⟩
      dsimp only at hstop ⊢
      split
      · rfl
      · rfl
      · simp [Except.map, Reading.noted, noted, Node.withSpan, Node.stop, hstop]

theorem readStatement_place (before source : Text) :
    readStatement before source place =
      (readStatement before source).map (Reading.noted place source) := by
  unfold readStatement
  simp only [bind, Except.bind, pure, Except.pure, throw, throwThe, MonadExceptOf.throw]
  cases hread : Statement.read source with
  | error fault => rfl
  | ok statement =>
    have hstop := dropWhile_stop hread
    rcases statement with ⟨text, trailing, stop⟩
    dsimp only at hstop ⊢
    split
    · rfl
    · rfl
    · split
      · rfl
      · simp [Except.map, Reading.noted, noted, Node.withSpan, Node.stop, hstop]

/-- **Places are noted beside what is read.** -/
theorem read_place (source : Text) :
    read source place = (read source).map (Reading.noted place (source.dropWhile isFiller)) := by
  unfold read
  dsimp only
  split
  · rfl
  · rfl
  · rename_i hhere
    rw [readComment_place, hhere]
  · rename_i hhere
    rw [readAtRule_place, hhere]
  · rw [readStatement_place]

theorem read_place_error {source : Text} {fault : Fault} (h : read source = .error fault) :
    read source place = .error fault := by
  rw [read_place, h]
  rfl

theorem read_place_ok {source : Text} {reading : Reading} (h : read source = .ok reading) :
    read source place = .ok (reading.noted place (source.dropWhile isFiller)) := by
  rw [read_place, h]
  rfl

end Places

/-! ### What stands in front of a piece -/

theorem before_of_read {source rest : Text} {piece : Piece}
    (h : read source = .ok (.piece piece rest)) : piece.before = source.takeWhile isFiller := by
  unfold read at h
  simp only at h
  split at h
  · cases h
  · cases h
    rfl
  · unfold readComment at h
    split at h <;> cases h
    rfl
  · unfold readAtRule at h
    simp only [bind, Except.bind, pure, Except.pure, throw, throwThe, MonadExceptOf.throw] at h
    repeat' split at h
    all_goals cases h
    all_goals rfl
  · unfold readStatement at h
    simp only [bind, Except.bind, pure, Except.pure, throw, throwThe, MonadExceptOf.throw] at h
    repeat' split at h
    all_goals cases h
    all_goals rfl

/-- What is read behind the blanks in front of a piece. -/
theorem dropWhile_of_read {source shown rest : Text} {piece : Piece}
    (h : read source = .ok (.piece piece rest)) (hsource : source = piece.before ++ shown) :
    source.dropWhile isFiller = shown := by
  have hwhole : piece.before ++ source.dropWhile isFiller = piece.before ++ shown := by
    rw [before_of_read h, List.takeWhile_append_dropWhile, ← before_of_read h, hsource]
  exact List.append_cancel_left hwhole

theorem read_place_of_read {source shown rest : Text} {piece : Piece} (place : Text → Position)
    (h : read source = .ok (.piece piece rest)) (hsource : source = piece.before ++ shown) :
    read source place = .ok (.piece (piece.noted place shown rest) rest) := by
  rw [read_place_ok place h, dropWhile_of_read h hsource]
  rfl

end Piece

namespace Stylesheet

/-! ### Reading the rest of a text -/

theorem Turn.read_eq_next (turn : Turn) (place : Text → Position) :
    turn.read place = match turn.next place with
      | .inl outcome => outcome
      | .inr later => later.read place := by
  rw [Turn.read]
  split <;> simp_all

/-- Reads the rest of a text.  `blocks` are the open blocks, `done` the nodes of the innermost
    block so far, last first, and `closed` tells whether a semicolon closes the last of
    them. -/
def readFrom (blocks : List OpenBlock) (done : List Node) (closed : Bool) (source : Text)
    (place : Text → Position := fun _ => {}) : Except Fault Stylesheet :=
  Turn.read ⟨blocks, done, closed, source⟩ place

theorem read_eq_readFrom (source : Text) (place : Text → Position) :
    read source place = readFrom [] [] false source place := rfl

section Steps

variable {blocks : List OpenBlock} {done : List Node} {closed : Bool} {source rest : Text}
  {place : Text → Position}

theorem readFrom_leaf {node : Node} {closed' : Bool}
    (h : Piece.read source place = .ok (.piece (.leaf node closed') rest)) :
    readFrom blocks done closed source place =
      readFrom blocks (node :: done) closed' rest place := by
  rw [readFrom, Turn.read_eq_next]
  cases blocks <;> simp [Turn.next, h, readFrom]

theorem readFrom_opening {heading : Heading}
    (h : Piece.read source place = .ok (.piece (.opening heading) rest)) :
    readFrom blocks done closed source place =
      readFrom (⟨heading, source.dropWhile isFiller, '{' :: rest, done⟩ :: blocks) [] false rest
        place := by
  rw [readFrom, Turn.read_eq_next]
  cases blocks <;> simp [Turn.next, h, readFrom]

theorem readFrom_closing {block : OpenBlock} {after : Text}
    (h : Piece.read source place = .ok (.piece (.closing after) rest)) :
    readFrom (block :: blocks) done closed source place =
      readFrom blocks
        (block.heading.node done.reverse after closed ⟨place block.start, place rest⟩ ::
          block.siblings) false rest place := by
  rw [readFrom, Turn.read_eq_next]
  simp [Turn.next, h, readFrom]

theorem readFrom_finished {after : Text} (h : Piece.read source place = .ok (.finished after)) :
    readFrom [] done closed source place =
      .ok { nodes := done.reverse, after, semicolon := closed } := by
  rw [readFrom, Turn.read_eq_next]
  simp [Turn.next, h]

theorem readFrom_of_error {fault : Fault} (h : Piece.read source place = .error fault) :
    readFrom blocks done closed source place = .error fault := by
  rw [readFrom, Turn.read_eq_next]
  cases blocks <;> simp [Turn.next, h]

theorem readFrom_finished_inside {block : OpenBlock} {after : Text}
    (h : Piece.read source place = .ok (.finished after)) :
    readFrom (block :: blocks) done closed source place =
      .error ⟨.unclosedBlock, block.brace, []⟩ := by
  rw [readFrom, Turn.read_eq_next]
  simp [Turn.next, h]

theorem readFrom_closing_outside {after : Text}
    (h : Piece.read source place = .ok (.piece (.closing after) rest)) :
    readFrom [] done closed source place =
      .error ⟨.unexpectedCloseBrace, '}' :: rest, '}' :: rest⟩ := by
  rw [readFrom, Turn.read_eq_next]
  simp [Turn.next, h]

end Steps

/-! ### Faults -/

/-- **How reading comes to a fault.**  It is found in the next piece, or behind it.  Of the blocks
    that are open only their braces count, each known by the text from it on. -/
inductive MeetsFault : List Text → Text → Fault → Prop
  | found {braces : List Text} {source : Text} {fault : Fault}
    (hpiece : Piece.read source = .error fault) : MeetsFault braces source fault
  | unclosed {brace : Text} {braces : List Text} {source after : Text}
    (hpiece : Piece.read source = .ok (.finished after)) :
    MeetsFault (brace :: braces) source ⟨.unclosedBlock, brace, []⟩
  | unopened {source after rest : Text}
    (hpiece : Piece.read source = .ok (.piece (.closing after) rest)) :
    MeetsFault [] source ⟨.unexpectedCloseBrace, '}' :: rest, '}' :: rest⟩
  | leaf {braces : List Text} {source rest : Text} {fault : Fault} {node : Node} {closed : Bool}
    (hpiece : Piece.read source = .ok (.piece (.leaf node closed) rest))
    (hrest : MeetsFault braces rest fault) : MeetsFault braces source fault
  | opening {braces : List Text} {source rest : Text} {fault : Fault} {heading : Heading}
    (hpiece : Piece.read source = .ok (.piece (.opening heading) rest))
    (hrest : MeetsFault (('{' :: rest) :: braces) rest fault) : MeetsFault braces source fault
  | closing {brace : Text} {braces : List Text} {source rest after : Text} {fault : Fault}
    (hpiece : Piece.read source = .ok (.piece (.closing after) rest))
    (hrest : MeetsFault braces rest fault) : MeetsFault (brace :: braces) source fault

section Faults

variable {place : Text → Position} {fault : Fault}

theorem meetsFault_of_readFrom {blocks : List OpenBlock} {done : List Node} {closed : Bool}
    {source : Text} (h : readFrom blocks done closed source place = .error fault) :
    MeetsFault (blocks.map OpenBlock.brace) source fault := by
  rcases hpiece : Piece.read source with found | ⟨piece, rest⟩ | after
  · rw [readFrom_of_error (Piece.read_place_error place hpiece)] at h
    cases h
    exact .found hpiece
  · have hshorter := Piece.length_lt_of_read hpiece
    have hplace := Piece.read_place_ok place hpiece
    cases piece with
    | leaf node closed' =>
      rw [readFrom_leaf hplace] at h
      exact .leaf hpiece (meetsFault_of_readFrom h)
    | opening heading =>
      rw [readFrom_opening hplace] at h
      exact .opening hpiece (meetsFault_of_readFrom h)
    | closing after =>
      cases blocks with
      | nil =>
        rw [readFrom_closing_outside hplace] at h
        cases h
        exact .unopened hpiece
      | cons block blocks =>
        rw [readFrom_closing hplace] at h
        exact .closing hpiece (meetsFault_of_readFrom h)
  · have hplace := Piece.read_place_ok place hpiece
    cases blocks with
    | nil =>
      rw [readFrom_finished hplace] at h
      cases h
    | cons block blocks =>
      rw [readFrom_finished_inside hplace] at h
      cases h
      exact .unclosed hpiece
termination_by source.length

theorem readFrom_of_meetsFault {braces : List Text} {source : Text}
    (h : MeetsFault braces source fault) : ∀ {blocks : List OpenBlock} {done : List Node}
      {closed : Bool}, blocks.map OpenBlock.brace = braces →
        readFrom blocks done closed source place = .error fault := by
  induction h with
  | found hpiece =>
    intro blocks done closed _
    exact readFrom_of_error (Piece.read_place_error place hpiece)
  | unclosed hpiece =>
    intro blocks done closed hblocks
    obtain ⟨block, blocks, rfl, rfl, -⟩ := List.map_eq_cons_iff.mp hblocks
    exact readFrom_finished_inside (Piece.read_place_ok place hpiece)
  | unopened hpiece =>
    intro blocks done closed hblocks
    obtain rfl := List.map_eq_nil_iff.mp hblocks
    exact readFrom_closing_outside (Piece.read_place_ok place hpiece)
  | leaf hpiece _ ih =>
    intro blocks done closed hblocks
    rw [readFrom_leaf (Piece.read_place_ok place hpiece)]
    exact ih hblocks
  | opening hpiece _ ih =>
    intro blocks done closed hblocks
    rw [readFrom_opening (Piece.read_place_ok place hpiece)]
    exact ih (congrArg (List.cons _) hblocks)
  | closing hpiece _ ih =>
    intro blocks done closed hblocks
    obtain ⟨block, blocks, rfl, -, hblocks⟩ := List.map_eq_cons_iff.mp hblocks
    rw [readFrom_closing (Piece.read_place_ok place hpiece)]
    exact ih hblocks

/-- **Whether reading fails does not depend on what was read**, but for the braces that are
    open, nor on what is noted. -/
theorem readFrom_eq_error_iff {blocks : List OpenBlock} {done : List Node} {closed : Bool}
    {source : Text} :
    readFrom blocks done closed source place = .error fault ↔
      MeetsFault (blocks.map OpenBlock.brace) source fault :=
  ⟨meetsFault_of_readFrom, fun h => readFrom_of_meetsFault h rfl⟩

theorem read_eq_error_iff {source : Text} :
    read source place = .error fault ↔ MeetsFault [] source fault :=
  readFrom_eq_error_iff

end Faults

/-! ### From trees to texts -/

theorem read_opening {heading : Heading} (h : heading.Reads) (rest : Text) :
    Piece.read (heading.before ++ heading.print ++ '{' :: rest) =
      .ok (.piece (.opening heading) rest) := by
  have hreads : (Piece.opening heading).Reads rest := by
    cases heading <;> exact h
  simpa [Piece.print] using Piece.read_of_reads hreads

theorem read_closing {after : Text} (h : after.IsFiller) (rest : Text) :
    Piece.read (after ++ '}' :: rest) = .ok (.piece (.closing after) rest) := by
  have hreads : (Piece.closing after).Reads rest := h
  simpa [Piece.print] using Piece.read_of_reads hreads

theorem isFiller_of_allRead {after : Text} {stop : Option Char} {semicolon closed : Bool}
    {nodes : List Node} (h : Node.AllRead after stop semicolon closed nodes) :
    after.IsFiller := by
  induction nodes generalizing closed with
  | nil => exact h.1
  | cons node nodes ih => exact ih h.2

end Stylesheet

theorem Node.takesSemicolon_of_isClosed {node : Node} {nodes : List Node} {semicolon : Bool}
    (h : node.isClosed semicolon nodes = true) : node.takesSemicolon = true :=
  (Bool.and_eq_true _ _ ▸ h).1

/-- Behind a node that could take a semicolon and has none comes the end of the block. -/
theorem Piece.closes_printAll {node : Node} {nodes : List Node} {semicolon : Bool}
    {rest after : Text} {stop : Option Char} (hrest : Piece.Closes rest after stop)
    (htakes : node.takesSemicolon = true) (hopen : node.isClosed semicolon nodes = false) :
    Piece.Closes (Node.printAll semicolon nodes ++ rest) after stop := by
  have hnil : nodes = [] := by
    simp only [Node.isClosed, htakes, Bool.true_and, Bool.or_eq_false_iff, Bool.not_eq_false',
      List.isEmpty_iff] at hopen
    exact hopen.1
  rw [hnil]
  exact hrest

namespace Stylesheet

section Trees

variable (place : Text → Position)

/-- **A leaf is read from its own text**, with the span that is noted for it. -/
theorem readFrom_leaf_of_reads (blocks : List OpenBlock) {node : Node} {closed : Bool}
    {rest : Text} (done : List Node) (behind : Bool)
    (hreads : (Piece.leaf node closed).Reads rest) :
    readFrom blocks done behind
        (node.before ++ node.body ++ (if closed then [';'] else []) ++ rest) place =
      readFrom blocks (node.withSpan (node.extent place closed rest) :: done) closed rest place := by
  have hsource : node.before ++ node.body ++ (if closed then [';'] else []) ++ rest =
      (Piece.leaf node closed).before ++
        (node.body ++ (if closed then [';'] else []) ++ rest) := by
    simp [Piece.before]
  exact readFrom_leaf (Piece.read_place_of_read place (Piece.read_of_reads hreads) hsource)

/-- **A block is read from its own text** if its head and its children are. -/
theorem readFrom_block (blocks : List OpenBlock) {heading : Heading} {children : List Node}
    {after : Text} {semicolon : Bool} (done : List Node) (behind : Bool) (rest : Text)
    (hheading : heading.Reads)
    (hall : Node.AllRead after (some '}') semicolon false children)
    (hchildren : ∀ {blocks : List OpenBlock} {rest : Text},
      Piece.Closes rest after (some '}') →
        readFrom blocks [] false (Node.printAll semicolon children ++ rest) place =
          readFrom blocks ((Node.notedAll place semicolon rest children).reverse ++ []) semicolon
            rest place) :
    let inside := Node.printAll semicolon children ++ (after ++ '}' :: rest)
    let span := ⟨place (heading.print ++ '{' :: inside), place rest⟩
    readFrom blocks done behind (heading.before ++ (heading.print ++ '{' :: inside)) place =
      readFrom blocks
        (heading.node (Node.notedAll place semicolon (after ++ '}' :: rest) children) after
          semicolon span :: done) false rest place := by
  intro inside span
  have hopening : Piece.read (heading.before ++ (heading.print ++ '{' :: inside)) =
      .ok (.piece (.opening heading) inside) := by
    rw [← List.append_assoc]
    exact read_opening hheading inside
  have hclosing : Piece.read (after ++ '}' :: rest) = .ok (.piece (.closing after) rest) :=
    read_closing (isFiller_of_allRead hall) rest
  have hopening' := Piece.read_place_of_read place hopening rfl
  have hclosing' := Piece.read_place_of_read place hclosing rfl
  rw [readFrom_opening hopening', Piece.dropWhile_of_read hopening rfl,
    hchildren (Piece.closes_brace after rest), readFrom_closing hclosing']
  simp [span]

mutual

/-- **A node that is read at its place is read from its own text.** -/
theorem readFrom_node (blocks : List OpenBlock) {after : Text} {stop : Option Char} :
    ∀ {node : Node} {closed : Bool} {rest : Text} (done : List Node) (behind : Bool),
      node.Reads after stop closed → node.erase = node →
      (closed = true → node.takesSemicolon = true) →
      (node.takesSemicolon = true → closed = false → Piece.Closes rest after stop) →
      readFrom blocks done behind
          (node.before ++ node.body ++ (if closed then [';'] else []) ++ rest) place =
        readFrom blocks (node.noted place closed rest :: done) closed rest place
  | .rule head children, closed, rest, done, behind, ⟨hhead, hchildren⟩, hplain, hclosed, _ => by
    have hopen : closed = false := by simpa [Node.takesSemicolon] using hclosed
    injection hplain with hspan hplain
    have hheading : (Heading.rule head.bare).Reads := ⟨rfl, Rule.reads_bare.mpr hhead⟩
    have hblock := readFrom_block place blocks done behind rest hheading hchildren fun hcloses =>
      readFrom_all _ hcloses [] hchildren hplain
    simpa [hopen, Node.before, Node.body, Node.noted, Node.extent, Node.stop, Heading.before,
      Heading.print, Heading.node, Rule.bare] using hblock
  | .atBlock head children, closed, rest, done, behind, ⟨hhead, hchildren⟩, hplain, hclosed, _ => by
    have hopen : closed = false := by simpa [Node.takesSemicolon] using hclosed
    injection hplain with hspan hplain
    have hheading : (Heading.atRule head.bare).Reads := ⟨rfl, AtRule.reads_bare.mpr hhead⟩
    have hblock := readFrom_block place blocks done behind rest hheading hchildren fun hcloses =>
      readFrom_all _ hcloses [] hchildren hplain
    simpa [hopen, Node.before, Node.body, Node.noted, Node.extent, Node.stop, Heading.before,
      Heading.print, Heading.node, AtRule.print, AtRule.bare] using hblock
  | .atLine head, closed, rest, done, behind, ⟨hline, hbetween, hhead⟩, hplain, _, hrest => by
    have hspan : head.span = {} := by
      injection hplain with h
      exact (congrArg AtRule.span h).symm
    have hbare := AtRule.bare_eq_iff.mpr ⟨hline, hspan⟩
    apply readFrom_leaf_of_reads
    cases closed with
    | true => exact ⟨hbare, hhead⟩
    | false => exact ⟨hbare, hbetween rfl, after, stop, hrest rfl rfl, hhead⟩
  | .declaration decl, closed, rest, done, behind, ⟨hafter, hdecl⟩, hplain, _, hrest => by
    have hspan : decl.span = {} := by
      injection hplain with h
      exact (congrArg Declaration.span h).symm
    apply readFrom_leaf_of_reads
    cases closed with
    | true => exact ⟨hspan, hdecl⟩
    | false => exact ⟨hspan, hafter rfl, after, stop, hrest rfl rfl, hdecl⟩
  | .comment note, closed, rest, done, behind, hnote, hplain, hclosed, _ => by
    have hopen : closed = false := by simpa [Node.takesSemicolon] using hclosed
    have hspan : note.span = {} := by
      injection hplain with h
      exact (congrArg Comment.span h).symm
    exact readFrom_leaf_of_reads place blocks done behind ⟨hspan, hopen, hnote⟩

/-- **The nodes of a block are read from their own text**, in front of what closes the last of
    them. -/
theorem readFrom_all (blocks : List OpenBlock) {after : Text} {stop : Option Char}
    {semicolon : Bool} {rest : Text} (hrest : Piece.Closes rest after stop) :
    ∀ {nodes : List Node} {closed : Bool} (done : List Node),
      Node.AllRead after stop semicolon closed nodes → Node.eraseAll nodes = nodes →
      readFrom blocks done closed (Node.printAll semicolon nodes ++ rest) place =
        readFrom blocks ((Node.notedAll place semicolon rest nodes).reverse ++ done) semicolon
          rest place
  | [], closed, done, ⟨_, hclosed⟩, _ => by
    rw [hclosed]
    rfl
  | node :: nodes, closed, done, ⟨hnode, hnodes⟩, hplain => by
    injection hplain with hplain hplains
    have hfirst := readFrom_node blocks done closed hnode hplain Node.takesSemicolon_of_isClosed
      (Piece.closes_printAll hrest)
    simp only [Node.printAll, Node.closer, List.append_assoc] at hfirst ⊢
    rw [hfirst, readFrom_all blocks hrest _ hnodes hplains]
    simp [Node.notedAll]

end

end Trees

end Stylesheet

namespace Node

/-! ### Where the noted places are -/

mutual

theorem noted_nowhere (closed : Bool) (rest : Text) :
    ∀ node : Node, node.noted (fun _ => {}) closed rest = node.erase
  | .rule _ children | .atBlock _ children => by
    simp only [noted, erase, notedAll_nowhere _ _ children]
    rfl
  | .atLine _ | .declaration _ | .comment _ => rfl

/-- Where places are not told apart, nodes have none. -/
theorem notedAll_nowhere (semicolon : Bool) (rest : Text) :
    ∀ nodes : List Node, notedAll (fun _ => {}) semicolon rest nodes = eraseAll nodes
  | [] => rfl
  | node :: nodes => by
    simp [notedAll, eraseAll, noted_nowhere _ _ node, notedAll_nowhere semicolon rest nodes]

end

section Before

variable {source front rest after : Text} {closed : Bool}

/-- A span goes on over what stands between the node and the end that is noted. -/
theorem tail_append_stop {node : Node} {stop : Option Char} (hreads : node.Reads after stop closed)
    (hclosed : closed = true → node.takesSemicolon = true)
    (hrest : node.takesSemicolon = true → closed = false → Piece.Closes rest after stop) :
    node.tail closed after ++ node.stop closed rest = (if closed then [';'] else []) ++ rest := by
  have hunclosed : after.IsBlank → Piece.Closes rest after stop →
      after ++ rest.dropWhile isWhiteSpace = rest := by
    rintro hblank ⟨tail, rfl, hhead, hend⟩
    have hoff : Text.StartsOff isWhiteSpace tail := by
      intro c hc
      rw [hhead] at hc
      rcases hend with rfl | rfl
      · cases hc
      · cases hc
        decide
    rw [(Text.takeWhile_append_of_startsOff hblank hoff).2]
  cases node with
  | rule head children =>
    have hopen : closed = false := by simpa [takesSemicolon] using hclosed
    simp [tail, Node.stop, hopen]
  | atBlock head children =>
    have hopen : closed = false := by simpa [takesSemicolon] using hclosed
    simp [tail, Node.stop, hopen]
  | comment note =>
    have hopen : closed = false := by simpa [takesSemicolon] using hclosed
    simp [tail, Node.stop, hopen]
  | atLine head =>
    cases closed with
    | true => rfl
    | false => exact hunclosed hreads.2.2.statement.blank (hrest rfl rfl)
  | declaration decl =>
    cases closed with
    | true => rfl
    | false => exact hunclosed hreads.2.statement.blank (hrest rfl rfl)

theorem extent_before {node : Node}
    (hsource : source = front ++ (node.body ++ ((if closed then [';'] else []) ++ rest)))
    (htail : node.tail closed after ++ node.stop closed rest =
      (if closed then [';'] else []) ++ rest) :
    node.extent (Position.before source) closed rest =
      ⟨.behind front, .behind (front ++ (node.body ++ node.tail closed after))⟩ := by
  have hstop : source = front ++ (node.body ++ node.tail closed after) ++ node.stop closed rest := by
    rw [hsource, ← htail]
    simp
  rw [extent, List.append_assoc]
  refine congrArg₂ Span.mk ?_ ?_
  · rw [hsource, Position.before_append]
  · rw [hstop, Position.before_append]

end Before

mutual

/-- **Noted places are where spans are laid.** -/
theorem noted_before {source : Text} {after : Text} {stop : Option Char} :
    ∀ {node : Node} {closed : Bool} {front rest : Text}, node.Reads after stop closed →
      (closed = true → node.takesSemicolon = true) →
      (node.takesSemicolon = true → closed = false → Piece.Closes rest after stop) →
      source = front ++ (node.body ++ ((if closed then [';'] else []) ++ rest)) →
      node.noted (Position.before source) closed rest =
        (node.locate (.behind front) (node.tail closed after)).1
  | .rule head children, closed, front, rest, hreads, hclosed, hrest, hsource => by
    have hextent := extent_before hsource (tail_append_stop hreads hclosed hrest)
    have hopen : closed = false := by simpa [takesSemicolon] using hclosed
    have hbegin : source = front ++ (head.selector ++ head.raws.between ++ ['{']) ++
        (printAll head.raws.semicolon children ++ (head.raws.after ++ '}' :: rest)) := by
      simp [hsource, body, hopen]
    have hinside := notedAll_before (Piece.closes_brace _ rest) hreads.2 hbegin
    simp only [noted, locate, hextent, hinside, locateAll_snd, Position.after_behind, body, tail]
    simp
  | .atBlock head children, closed, front, rest, hreads, hclosed, hrest, hsource => by
    have hextent := extent_before hsource (tail_append_stop hreads hclosed hrest)
    have hopen : closed = false := by simpa [takesSemicolon] using hclosed
    have hbegin : source = front ++ (head.print ++ ['{']) ++
        (printAll head.raws.semicolon children ++ (head.raws.after ++ '}' :: rest)) := by
      simp [hsource, body, hopen]
    have hinside := notedAll_before (Piece.closes_brace _ rest) hreads.2 hbegin
    simp only [noted, locate, hextent, hinside, locateAll_snd, Position.after_behind, body, tail]
    simp
  | .atLine head, closed, front, rest, hreads, hclosed, hrest, hsource => by
    have hextent := extent_before hsource (tail_append_stop hreads hclosed hrest)
    simp [noted, locate, hextent, Position.after_behind]
  | .declaration decl, closed, front, rest, hreads, hclosed, hrest, hsource => by
    have hextent := extent_before hsource (tail_append_stop hreads hclosed hrest)
    simp [noted, locate, hextent, Position.after_behind]
  | .comment note, closed, front, rest, hreads, hclosed, hrest, hsource => by
    have hextent := extent_before hsource (tail_append_stop hreads hclosed hrest)
    simp [noted, locate, hextent, Position.after_behind]

theorem notedAll_before {source : Text} {after : Text} {stop : Option Char} {semicolon : Bool}
    {rest : Text} (hrest : Piece.Closes rest after stop) :
    ∀ {nodes : List Node} {closed : Bool} {front : Text},
      AllRead after stop semicolon closed nodes →
      source = front ++ (printAll semicolon nodes ++ rest) →
      notedAll (Position.before source) semicolon rest nodes =
        (locateAll (.behind front) semicolon after nodes).1
  | [], _, _, _, _ => rfl
  | node :: nodes, closed, front, ⟨hnode, hnodes⟩, hsource => by
    have hbody : source = front ++ node.before ++ (node.body ++
        ((if node.isClosed semicolon nodes then [';'] else []) ++
          (printAll semicolon nodes ++ rest))) := by
      simp [hsource, printAll, closer]
    have hbehind : source =
        front ++ (node.before ++ (node.body ++ node.closer semicolon nodes)) ++
          (printAll semicolon nodes ++ rest) := by
      simp [hsource, printAll]
    have hfirst := noted_before hnode takesSemicolon_of_isClosed (Piece.closes_printAll hrest) hbody
    have hothers := notedAll_before hrest hnodes hbehind
    simp [notedAll, locateAll, hfirst, hothers, locate_snd, Position.after_behind]

end

end Node

end EmScale
