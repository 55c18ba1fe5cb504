/-
  EmScale/Sheet/Piece.lean
  ========================
  **A stylesheet as a flat list of pieces.**

  A stylesheet is read piece by piece: whole declarations, comments and at-rules without a
  block, heads that open a block, and the braces that close one.  Every piece carries the
  blanks in front of it, and the pieces in order are the text.  So what the source does in one
  call that reads a block and all in it (`parse_at_rule`, `parse_statement`) is cut here where
  the block begins; the reader of stylesheets puts it together.  Blanks that a statement hands
  back to the block, which the source carries along beside the text, are put in front of it.

  A place that is met is known by the text ahead of it.  The readers are told where such a text
  lies, and give the nodes their spans by that; told nothing, they leave the spans out.

  `Piece.print_of_read` states that a piece is what the text starts with, and
  `Piece.length_lt_of_read` that reading moves on, so that a text has finitely many pieces.
-/
import EmScale.Sheet.Printer
import EmScale.Sheet.Statement
import EmScale.Unicode.Alphanumeric

namespace EmScale

open Unicode (isWhiteSpace isAlphanumeric)

/-! ### Pieces -/

/-- The head of a block. -/
inductive Heading where
  | rule (head : Rule)
  | atRule (head : AtRule)
deriving DecidableEq, Repr, Inhabited

/-- The node of a head and of what was read behind it. -/
def Heading.node (children : List Node) (after : Text) (semicolon : Bool) (span : Span := {}) :
    Heading → Node
  | rule head => .rule { head with raws := { head.raws with after, semicolon }, span } children
  | atRule head =>
    .atBlock { head with raws := { head.raws with after, semicolon }, span } children

def Heading.before : Heading → Text
  | rule head => head.raws.before
  | atRule head => head.raws.before

def Heading.print : Heading → Text
  | rule head => head.selector ++ head.raws.between
  | atRule head => head.print

inductive Piece where
  /-- A comment, a declaration or an at-rule without a block, and whether a semicolon closes
      it. -/
  | leaf (node : Node) (closed : Bool)
  /-- The head of a block and its opening brace. -/
  | opening (heading : Heading)
  /-- The blanks behind the last node of a block and its closing brace. -/
  | closing (after : Text)
deriving Repr, Inhabited

def Piece.print : Piece → Text
  | leaf node closed => node.before ++ node.body ++ if closed then [';'] else []
  | opening heading => heading.before ++ heading.print ++ ['{']
  | closing after => after ++ ['}']

/-! ### Reading one piece -/

/-- What a text starts with: a piece and the text behind it, or blanks up to the end. -/
inductive Reading where
  | piece (piece : Piece) (rest : Text)
  | finished (after : Text)
deriving Repr, Inhabited

/-- Blanks and stray semicolons, which may stand between two nodes. -/
def isFiller (c : Char) : Bool :=
  isWhiteSpace c || c == ';'

def isNameCharacter (c : Char) : Bool :=
  isAlphanumeric c || c == '-' || c == '_'

namespace Piece

/-- Cuts a text at the first `*/`, which belongs to neither part. -/
def splitComment : Text → Option (Text × Text)
  | [] => none
  | '*' :: '/' :: rest => some ([], rest)
  | c :: t => (splitComment t).map fun (text, rest) => (c :: text, rest)

/-- Reads a comment from behind its `/*` (`parse_comment`). -/
def readComment (before source : Text) (place : Text → Position := fun _ => {}) :
    Except Fault Reading :=
  let start := '/' :: '*' :: source
  match splitComment source with
  | none => .error ⟨.unterminatedComment, start, []⟩
  | some (text, rest) =>
    .ok (.piece (.leaf (.comment { text, before, span := ⟨place start, place rest⟩ }) false) rest)

/-- Reads an at-rule up to its block from behind its `@` (`parse_at_rule`).  Where a closing
    brace or the end of the text ends it, the blanks in front of that are left to the block, but
    are in its span. -/
def readAtRule (before source : Text) (place : Text → Position := fun _ => {}) :
    Except Fault Reading := do
  let start := '@' :: source
  let name := source.takeWhile isNameCharacter
  if name.isEmpty then
    throw ⟨.missingAtRuleName, start, source⟩
  let behind := source.dropWhile isNameCharacter
  let afterName := behind.takeWhile isWhiteSpace
  let statement ← Statement.read (behind.dropWhile isWhiteSpace)
  let params := statement.text
  match statement.stop with
  | '{' :: rest =>
    let raws := { before, between := statement.trailing }
    return .piece (.opening (.atRule { name, params, afterName, raws })) rest
  | ';' :: rest =>
    let raws := { before, between := statement.trailing }
    let span := ⟨place start, place rest⟩
    return .piece (.leaf (.atLine { name, params, afterName, raws, span }) true) rest
  | stop =>
    let span := ⟨place start, place stop⟩
    let node := .atLine { name, params, afterName, raws := { before }, span }
    return .piece (.leaf node false) (statement.trailing ++ stop)

/-- Reads a rule up to its block, or a declaration (`parse_statement`).  The first colon of a
    declaration ends its property, and the blanks around the colon belong to neither side.
    Where a closing brace or the end of the text ends a declaration, the blanks in front of that
    are left to the block.  The span of a declaration ends in front of what ends it. -/
def readStatement (before source : Text) (place : Text → Position := fun _ => {}) :
    Except Fault Reading := do
  let statement ← Statement.read source
  let left := statement.text.takeWhile (· != ':')
  let prop := Text.trimEnd left
  match statement.stop, statement.text.dropWhile (· != ':') with
  | '{' :: rest, _ =>
    let raws := { before, between := statement.trailing }
    return .piece (.opening (.rule { selector := statement.text, raws })) rest
  | stop, [] =>
    throw ⟨.missingColon statement.text, source, stop⟩
  | stop, _ :: right =>
    let value := Text.trimStart right
    let between := Text.trailing left ++ ':' :: right.takeWhile isWhiteSpace
    let span := ⟨place source, place stop⟩
    match stop with
    | ';' :: rest =>
      let node := .declaration { prop, value, before, between, after := statement.trailing, span }
      return .piece (.leaf node true) rest
    | _ =>
      let node := .declaration { prop, value, before, between, span }
      return .piece (.leaf node false) (statement.trailing ++ stop)

/-- Reads what a text starts with: the blanks and what they are in front of.  This is what one
    round of the loop in `parse_nodes` does, with `whitespace` at its start. -/
def read (source : Text) (place : Text → Position := fun _ => {}) : Except Fault Reading :=
  let before := source.takeWhile isFiller
  match source.dropWhile isFiller with
  | [] => .ok (.finished before)
  | '}' :: rest => .ok (.piece (.closing before) rest)
  | '/' :: '*' :: rest => readComment before rest place
  | '@' :: rest => readAtRule before rest place
  | here => readStatement before here place

/-! ### Nothing is lost -/

section

variable {place : Text → Position}

theorem splitComment_append {source text rest : Text}
    (h : splitComment source = some (text, rest)) : text ++ '*' :: '/' :: rest = source := by
  fun_induction splitComment source generalizing text rest with
  | case1 => cases h
  | case2 => cases h; rfl
  | case3 c t _ ih =>
    simp only [Option.map_eq_some_iff, Prod.mk.injEq, Prod.exists] at h
    obtain ⟨text', rest', found, rfl, rfl⟩ := h
    simp [ih found]

theorem print_of_readComment {before source rest : Text} {piece : Piece}
    (h : readComment before source place = .ok (.piece piece rest)) :
    piece.print ++ rest = before ++ '/' :: '*' :: source := by
  unfold readComment at h
  split at h
  · cases h
  · rename_i found
    cases h
    simp [print, Node.before, Node.body, ← splitComment_append found]

theorem print_of_readAtRule {before source rest : Text} {piece : Piece}
    (h : readAtRule before source place = .ok (.piece piece rest)) :
    piece.print ++ rest = before ++ '@' :: source := by
  have named := List.takeWhile_append_dropWhile (p := isNameCharacter) (l := source)
  have blanks := List.takeWhile_append_dropWhile (p := isWhiteSpace)
    (l := source.dropWhile isNameCharacter)
  unfold readAtRule at h
  simp only [bind, Except.bind, pure, Except.pure, throw, throwThe, MonadExceptOf.throw] at h
  split at h
  · cases h
  · split at h
    · cases h
    · rename_i statement found
      have whole := Statement.read_append found
      split at h <;> cases h <;> rename_i stops <;>
        simp_all [print, Heading.print, Heading.before, Node.before, Node.body, AtRule.print]

/-- A declaration text is its property, what surrounds its first colon, and its value. -/
theorem splitColon_append {text right : Text} {colon : Char}
    (h : text.dropWhile (· != ':') = colon :: right) :
    Text.trimEnd (text.takeWhile (· != ':')) ++
      (Text.trailing (text.takeWhile (· != ':')) ++
        ':' :: (right.takeWhile isWhiteSpace ++ Text.trimStart right)) = text := by
  have isColon : colon = ':' := by
    have := List.head?_dropWhile_not (p := (· != ':')) (l := text)
    simp_all
  have whole := List.takeWhile_append_dropWhile (p := (· != ':')) (l := text)
  rw [h, isColon] at whole
  rw [← List.append_assoc, Text.trimEnd_append_trailing, Text.trimStart,
    List.takeWhile_append_dropWhile, whole]

theorem print_of_readStatement {before source rest : Text} {piece : Piece}
    (h : readStatement before source place = .ok (.piece piece rest)) :
    piece.print ++ rest = before ++ source := by
  unfold readStatement at h
  simp only [bind, Except.bind, pure, Except.pure, throw, throwThe, MonadExceptOf.throw] at h
  split at h
  · cases h
  · rename_i statement found
    have whole := Statement.read_append found
    split at h
    · cases h
      simp_all [print, Heading.print, Heading.before]
    · cases h
    · rename_i colon _
      have parts := splitColon_append colon
      split at h <;> cases h <;> simp_all [print, Node.before, Node.body]

/-- A piece and the text behind it are the text they were read from. -/
theorem print_of_read {source rest : Text} {piece : Piece}
    (h : read source place = .ok (.piece piece rest)) : piece.print ++ rest = source := by
  have whole := List.takeWhile_append_dropWhile (p := isFiller) (l := source)
  unfold read at h
  simp only at h
  split at h
  · cases h
  · rename_i here
    cases h
    simp_all [print]
  · rename_i here
    rw [print_of_readComment h, ← here, whole]
  · rename_i here
    rw [print_of_readAtRule h, ← here, whole]
  · rw [print_of_readStatement h, whole]

theorem print_ne_nil_of_read {source rest : Text} {piece : Piece}
    (h : read source place = .ok (.piece piece rest)) : piece.print ≠ [] := by
  unfold read at h
  simp only at h
  split at h
  · cases h
  · cases h
    simp [print]
  · unfold readComment at h
    split at h <;> cases h
    simp [print, Node.body]
  · unfold readAtRule at h
    simp only [bind, Except.bind, pure, Except.pure, throw, throwThe, MonadExceptOf.throw] at h
    split at h
    · cases h
    · split at h
      · cases h
      · split at h <;> cases h <;> simp [print, Node.body, AtRule.print]
  · unfold readStatement at h
    simp only [bind, Except.bind, pure, Except.pure, throw, throwThe, MonadExceptOf.throw] at h
    split at h
    · cases h
    · split at h
      · cases h
        simp [print]
      · cases h
      · split at h <;> cases h <;> simp [print, Node.body]

theorem length_lt_of_read {source rest : Text} {piece : Piece}
    (h : read source place = .ok (.piece piece rest)) : rest.length < source.length := by
  have whole := congrArg List.length (print_of_read h)
  have filled := List.length_pos_iff.2 (print_ne_nil_of_read h)
  simp only [List.length_append] at whole
  omega

end

end Piece

end EmScale
