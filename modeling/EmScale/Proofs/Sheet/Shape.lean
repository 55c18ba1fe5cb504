/-
  EmScale/Proofs/Sheet/Shape.lean
  ===============================
  **Where everything stands in a tree that is read.**

  `Stylesheet.HasShape P` says of each text of a tree by itself what it is made of: blanks and
  semicolons in front of a node, blanks around a head, a prelude without blanks at its ends.
  Selectors, preludes and declarations are asked for `P` besides.  `Stylesheet.IsDelimited`
  says what two neighbouring texts must not do: a name of an at-rule does not go on into its
  prelude, a comment does not hold its own end, and a last declaration that no semicolon
  closes leaves the blanks behind it to its block.

  A tree that was parsed has both (`Stylesheet.hasShape_of_parse`), where `P` is that nothing
  ends the statement early.  Conversely, let `P` be that the statement is closed at its own
  end.  Then a tree of this shape is parsed from its own text if and only if it is delimited
  (`Stylesheet.parse_print_iff`).
-/
import EmScale.Proofs.Sheet.Reread

namespace EmScale

open Unicode (isWhiteSpace)
open Text (IsBlank IsTight StartsOff)

/-! ### Texts -/

/-- No blank at either end. -/
@[mk_iff]
structure Text.IsTrimmed (t : Text) : Prop where
  start : StartsOff isWhiteSpace t
  tight : IsTight t

instance (t : Text) : Decidable t.IsTrimmed :=
  decidable_of_iff' _ (Text.isTrimmed_iff t)

/-- Blanks, one colon, and blanks. -/
def Text.IsSeparator (t : Text) : Prop :=
  ∃ left right, t = left ++ ':' :: right ∧ IsBlank left ∧ IsBlank right

theorem Text.isSeparator_iff {t : Text} :
    t.IsSeparator ↔
      (t.dropWhile isWhiteSpace).head? = some ':' ∧ IsBlank (t.dropWhile isWhiteSpace).tail := by
  constructor
  · rintro ⟨left, right, rfl, hleft, hright⟩
    obtain ⟨-, hdrop⟩ := Text.takeWhile_append_of_startsOff (b := ':' :: right) hleft
      (Text.startsOff_cons.mpr (by decide))
    rw [hdrop]
    exact ⟨rfl, hright⟩
  · rintro ⟨hcolon, hright⟩
    have hwhole := List.takeWhile_append_dropWhile (p := isWhiteSpace) (l := t)
    obtain ⟨right, hdrop⟩ := List.head?_eq_some_iff.mp hcolon
    rw [hdrop] at hwhole hright
    exact ⟨_, right, hwhole.symm, Text.isBlank_takeWhile t, hright⟩

instance (t : Text) : Decidable t.IsSeparator :=
  decidable_of_iff' _ Text.isSeparator_iff

/-- Neither the start of an at-rule nor that of a comment. -/
def Text.StartsPlainly (t : Text) : Prop :=
  ¬ ['@'] <+: t ∧ ¬ ['/', '*'] <+: t

instance (t : Text) : Decidable t.StartsPlainly := by
  unfold Text.StartsPlainly; infer_instance

/-- No brace and no semicolon stands in the text outside strings, comments, escapes and
    parentheses. -/
def Text.IsUnbroken (t : Text) : Prop :=
  Lexis.runsThrough {} t = true

instance (t : Text) : Decidable t.IsUnbroken := by
  unfold Text.IsUnbroken; infer_instance

/-- The scan of statements runs over the text to its end, and there no string, comment, escape
    or parenthesis is open. -/
@[mk_iff]
structure Text.IsClosed (t : Text) : Prop where
  unbroken : t.IsUnbroken
  outside : (Lexis.run {} t).isOutside = true
  depth : (Lexis.run {} t).depth = 0

instance (t : Text) : Decidable t.IsClosed :=
  decidable_of_iff' _ (Text.isClosed_iff t)

theorem Text.IsTrimmed.of_append {a b : Text} (h : (a ++ b).IsTrimmed) :
    StartsOff isWhiteSpace a ∧ IsTight b := by
  constructor
  · exact h.start.of_append
  · by_cases hb : b = []
    · rw [hb]
      exact Text.isTight_nil
    · exact (Text.isTight_append_iff hb).mp h.tight

/-! ### Shapes -/

@[mk_iff]
structure Rule.HasShape (P : Text → Prop) (head : Rule) : Prop where
  before : head.raws.before.IsFiller
  between : IsBlank head.raws.between
  after : head.raws.after.IsFiller
  selector : P head.selector
  trimmed : head.selector.IsTrimmed
  plainly : head.selector.StartsPlainly
  empty : head.selector = [] → head.raws.between = []

@[mk_iff]
structure AtRule.HasShape (P : Text → Prop) (head : AtRule) : Prop where
  before : head.raws.before.IsFiller
  named : head.name ≠ []
  name : ∀ c ∈ head.name, isNameCharacter c = true
  afterName : IsBlank head.afterName
  between : IsBlank head.raws.between
  params : P head.params
  trimmed : head.params.IsTrimmed
  empty : head.params = [] → head.raws.between = []

@[mk_iff]
structure Declaration.HasShape (P : Text → Prop) (decl : Declaration) : Prop where
  before : decl.before.IsFiller
  after : IsBlank decl.after
  between : decl.between.IsSeparator
  prop : decl.prop.IsTrimmed
  colon : ':' ∉ decl.prop
  value : decl.value.IsTrimmed
  text : P decl.text
  trimmed : decl.text.IsTrimmed
  plainly : decl.text.StartsPlainly

/-- A node whose texts are what they should be, each by itself. -/
def Node.HasShape (P : Text → Prop) : Node → Prop
  | rule head _ => head.HasShape P
  | atBlock head _ => head.HasShape P ∧ head.raws.after.IsFiller
  | atLine head => head.HasShape P
  | declaration decl => decl.HasShape P
  | comment note => note.before.IsFiller

@[mk_iff]
structure Stylesheet.HasShape (P : Text → Prop) (sheet : Stylesheet) : Prop where
  after : sheet.after.IsFiller
  nodes : ∀ node ∈ sheet.allNodes, node.HasShape P

section Decidable

instance (p : Char → Bool) (t : Text) : Decidable (∀ c ∈ t, p c = true) :=
  decidable_of_iff (t.all p = true) List.all_eq_true

variable (P : Text → Prop) [DecidablePred P]

instance (head : Rule) : Decidable (head.HasShape P) :=
  decidable_of_iff' _ (Rule.hasShape_iff P head)

instance (head : AtRule) : Decidable (head.HasShape P) :=
  decidable_of_iff' _ (AtRule.hasShape_iff P head)

instance (decl : Declaration) : Decidable (decl.HasShape P) :=
  decidable_of_iff' _ (Declaration.hasShape_iff P decl)

instance : (node : Node) → Decidable (node.HasShape P)
  | .rule head _ => inferInstanceAs (Decidable (head.HasShape P))
  | .atBlock head _ =>
    inferInstanceAs (Decidable (head.HasShape P ∧ head.raws.after.IsFiller))
  | .atLine head => inferInstanceAs (Decidable (head.HasShape P))
  | .declaration decl => inferInstanceAs (Decidable (decl.HasShape P))
  | .comment note => inferInstanceAs (Decidable note.before.IsFiller)

instance (sheet : Stylesheet) : Decidable (sheet.HasShape P) :=
  decidable_of_iff' _ (Stylesheet.hasShape_iff P sheet)

end Decidable

/-! ### What neighbours do not do -/

/-- A node that leaves the blanks `after` behind it to its block. -/
def Node.LeavesBehind (after : Text) : Node → Prop
  | atLine head => head.raws.between = [] ∧ IsBlank after ∧ (head.params = [] → after = [])
  | declaration decl => decl.after = [] ∧ IsBlank after
  | rule .. | atBlock .. | comment _ => True

/-- How a block ends.  A semicolon is noted only behind a node that takes one, and a node that
    takes one and has none leaves the blanks behind it to the block. -/
@[mk_iff]
structure Node.BlockEnds (after : Text) (semicolon : Bool) (nodes : List Node) : Prop where
  closed : semicolon = true → ∃ last ∈ nodes.getLast?, last.takesSemicolon = true
  unclosed : semicolon = false → ∀ last ∈ nodes.getLast?, last.LeavesBehind after

/-- A node whose parts can be told apart in its text. -/
def Node.IsDelimited : Node → Prop
  | rule head children => Node.BlockEnds head.raws.after head.raws.semicolon children
  | atBlock head children =>
    head.IsSeparated ∧ Node.BlockEnds head.raws.after head.raws.semicolon children
  | atLine head => head.IsSeparated ∧ head.raws.after = [] ∧ head.raws.semicolon = false
  | declaration _ => True
  | comment note => ¬ ['*', '/'] <:+: note.text

@[mk_iff]
structure Stylesheet.IsDelimited (sheet : Stylesheet) : Prop where
  ends : Node.BlockEnds sheet.after sheet.semicolon sheet.nodes
  nodes : ∀ node ∈ sheet.allNodes, node.IsDelimited

instance (after : Text) : (node : Node) → Decidable (node.LeavesBehind after)
  | .atLine head =>
    inferInstanceAs (Decidable
      (head.raws.between = [] ∧ IsBlank after ∧ (head.params = [] → after = [])))
  | .declaration decl => inferInstanceAs (Decidable (decl.after = [] ∧ IsBlank after))
  | .rule .. | .atBlock .. | .comment _ => inferInstanceAs (Decidable True)

instance (after : Text) (semicolon : Bool) (nodes : List Node) :
    Decidable (Node.BlockEnds after semicolon nodes) :=
  decidable_of_iff' _ (Node.blockEnds_iff after semicolon nodes)

instance : (node : Node) → Decidable node.IsDelimited
  | .rule head children =>
    inferInstanceAs (Decidable (Node.BlockEnds head.raws.after head.raws.semicolon children))
  | .atBlock head children =>
    inferInstanceAs (Decidable
      (head.IsSeparated ∧ Node.BlockEnds head.raws.after head.raws.semicolon children))
  | .atLine head =>
    inferInstanceAs (Decidable
      (head.IsSeparated ∧ head.raws.after = [] ∧ head.raws.semicolon = false))
  | .declaration _ => inferInstanceAs (Decidable True)
  | .comment note => inferInstanceAs (Decidable (¬ ['*', '/'] <:+: note.text))

instance (sheet : Stylesheet) : Decidable sheet.IsDelimited :=
  decidable_of_iff' _ (Stylesheet.isDelimited_iff sheet)

/-! ### Ends of blocks -/

namespace Node

theorem blockEnds_nil {after : Text} {semicolon : Bool} :
    BlockEnds after semicolon [] ↔ semicolon = false := by
  constructor
  · intro h
    by_contra hsemicolon
    obtain ⟨last, hlast, -⟩ := h.closed (by simpa using hsemicolon)
    cases hlast
  · intro h
    constructor
    · intro hsemicolon
      rw [h] at hsemicolon
      cases hsemicolon
    · intro _ last hlast
      cases hlast

theorem blockEnds_singleton {after : Text} {semicolon : Bool} {node : Node} :
    BlockEnds after semicolon [node] ↔
      (semicolon = true → node.takesSemicolon = true) ∧
        (semicolon = false → node.LeavesBehind after) := by
  constructor
  · intro h
    constructor
    · intro hsemicolon
      obtain ⟨last, hlast, htakes⟩ := h.closed hsemicolon
      cases hlast
      exact htakes
    · intro hsemicolon
      exact h.unclosed hsemicolon node rfl
  · rintro ⟨hclosed, hunclosed⟩
    constructor
    · intro hsemicolon
      exact ⟨node, rfl, hclosed hsemicolon⟩
    · intro hsemicolon last hlast
      cases hlast
      exact hunclosed hsemicolon

theorem blockEnds_cons_cons {after : Text} {semicolon : Bool} {node next : Node}
    {rest : List Node} :
    BlockEnds after semicolon (node :: next :: rest) ↔
      BlockEnds after semicolon (next :: rest) := by
  have hlast : (node :: next :: rest).getLast? = (next :: rest).getLast? :=
    List.getLast?_cons_cons
  constructor
  · intro h
    exact ⟨hlast ▸ h.closed, hlast ▸ h.unclosed⟩
  · intro h
    exact ⟨hlast ▸ h.closed, hlast ▸ h.unclosed⟩

theorem leavesBehind_of_not_takesSemicolon {node : Node} (h : node.takesSemicolon = false)
    (after : Text) : node.LeavesBehind after := by
  cases node with
  | atLine head => cases h
  | declaration decl => cases h
  | _ => exact trivial

theorem allRead_cons {after : Text} {stop : Option Char} {semicolon closed : Bool} {node : Node}
    {rest : List Node} :
    AllRead after stop semicolon closed (node :: rest) ↔
      node.Reads after stop (node.isClosed semicolon rest) ∧
        AllRead after stop semicolon (node.isClosed semicolon rest) rest := Iff.rfl

end Node

/-! ### From shapes to reading -/

theorem Lexis.mode_of_isOutside {s : Lexis} (h : s.isOutside = true) :
    s.mode = .plain ∨ s.mode = .slash := by
  simpa [isOutside] using h

theorem Lexis.endsAt_none_of_isOutside {s : Lexis} (h : s.isOutside = true) : s.EndsAt none := by
  rcases mode_of_isOutside h with hmode | hmode
  · simp [EndsAt, inString, inComment, hmode]
  · simp [EndsAt, inString, inComment, hmode]

section Closed

variable {t : Text}

theorem Text.IsClosed.delimits (h : t.IsClosed) (htight : IsTight t) {trailing : Text}
    (hblank : IsBlank trailing) {stop : Option Char}
    (hstop : ∀ c ∈ stop, c = '{' ∨ c = ';' ∨ c = '}') : Statement.Delimits t trailing stop := by
  have hinert := Lexis.isInert_of_isBlank hblank
  have hproper := Lexis.isProper_start.run t
  have hthrough : Lexis.runsThrough {} (t ++ trailing) = true := by
    rw [Lexis.runsThrough_append, h.unbroken, Lexis.runsThrough_of_isInert hinert]
    rfl
  have hdepth : (Lexis.run {} (t ++ trailing)).depth = 0 := by
    rw [Lexis.run_append, Lexis.depth_run_of_isBlank hproper hblank, h.depth]
  have houtside : (Lexis.run {} (t ++ trailing)).isOutside = true := by
    rw [Lexis.run_append]
    by_cases hnil : trailing = []
    · rw [hnil]
      exact h.outside
    · have hmode := h.outside
      rw [Lexis.run_of_isInert hproper hnil hinert]
      rcases Lexis.mode_of_isOutside hmode with hmode | hmode <;>
        simp [hmode, Lexis.isOutside, Lexis.settle]
  refine ⟨htight, hblank, hthrough, ?_⟩
  rcases stop with _ | c
  · exact Lexis.endsAt_none_of_isOutside houtside
  · have hc := hstop c rfl
    unfold Lexis.EndsAt Lexis.stops
    rw [houtside, hdepth]
    rcases hc with rfl | rfl | rfl <;> rfl

/-- A text that no blank, brace or semicolon starts opens a statement. -/
theorem opensStatement_of_isUnbroken (hne : t ≠ []) (hunbroken : t.IsUnbroken)
    (hstart : StartsOff isWhiteSpace t) (hplainly : t.StartsPlainly) {rest : Text}
    (hrest : StartsOff (· == '*') rest) : opensStatement (t ++ rest) = true := by
  rcases t with _ | ⟨c, t⟩
  · exact absurd rfl hne
  have hwhite : isWhiteSpace c = false := Text.startsOff_cons.mp hstart
  have hstops : Lexis.stops {} c = false := by
    unfold Text.IsUnbroken at hunbroken
    rw [Lexis.runsThrough_cons, Bool.and_eq_true] at hunbroken
    simpa using hunbroken.1
  have hsemicolon : c ≠ ';' := by
    rintro rfl
    exact absurd hstops (by decide)
  have hbrace : c ≠ '}' := by
    rintro rfl
    exact absurd hstops (by decide)
  have hat : c ≠ '@' := by
    rintro rfl
    exact hplainly.1 ⟨t, rfl⟩
  have hslash : ¬ (c = '/' ∧ (t ++ rest).head? = some '*') := by
    rintro ⟨rfl, hstar⟩
    rcases t with _ | ⟨d, t⟩
    · have hoff := hrest '*' hstar
      exact absurd hoff (by decide)
    · cases hstar
      exact hplainly.2 ⟨t, rfl⟩
  have hfiller : isFiller c = false := by simp [isFiller, hwhite, hsemicolon]
  simpa [opensStatement, hfiller, hbrace, hat] using Decidable.not_and_iff_not_or_not.mp hslash

theorem startsOff_star_of_isBlank {blank : Text} (h : IsBlank blank) :
    StartsOff (· == '*') (blank ++ ['{']) := by
  apply Text.StartsOff.append
  · intro c hc
    have hwhite := h c (List.mem_of_mem_head? hc)
    rcases eq_or_ne c '*' with rfl | hne
    · exact absurd hwhite (by decide)
    · simpa using hne
  · intro _
    exact Text.startsOff_cons.mpr (by decide)

end Closed

theorem Rule.HasShape.reads {head : Rule} (h : head.HasShape Text.IsClosed) : head.Reads := by
  refine ⟨h.before, ?_, h.selector.delimits h.trimmed.tight h.between (by simp)⟩
  rw [List.append_assoc]
  by_cases hempty : head.selector = []
  · rw [h.empty hempty, hempty]
    decide
  · exact opensStatement_of_isUnbroken hempty h.selector.unbroken h.trimmed.start h.plainly
      (startsOff_star_of_isBlank h.between)

theorem AtRule.HasShape.reads {head : AtRule} (h : head.HasShape Text.IsClosed)
    (hseparated : head.IsSeparated) {trailing : Text} (hblank : IsBlank trailing)
    (hempty : head.params = [] → trailing = []) {stop : Option Char}
    (hstop : ∀ c ∈ stop, c = '{' ∨ c = ';' ∨ c = '}') : head.Reads trailing stop := by
  have hparams : StartsOff isWhiteSpace (head.params ++ trailing) := by
    apply h.trimmed.start.append
    intro hparams
    rw [hempty hparams]
    exact Text.startsOff_nil _
  exact ⟨⟨h.before, h.named, h.name, h.afterName, hparams,
    h.params.delimits h.trimmed.tight hblank hstop⟩, hseparated⟩

theorem Declaration.HasShape.reads {decl : Declaration} (h : decl.HasShape Text.IsClosed)
    {trailing : Text} (hblank : IsBlank trailing) {stop : Option Char}
    (hstop : ∀ c ∈ stop, c = '{' ∨ c = ';' ∨ c = '}') : decl.Reads trailing stop := by
  have hne : decl.text ≠ [] := by
    obtain ⟨left, right, hbetween, -, -⟩ := h.between
    simp [Declaration.text, hbetween]
  have hopens := opensStatement_of_isUnbroken hne h.text.unbroken h.trimmed.start h.plainly
    (Text.startsOff_nil _)
  rw [List.append_nil] at hopens
  have hprop : ∀ c ∈ decl.prop, (c != ':') = true := by
    intro c hc
    have hcolon : c ≠ ':' := by
      rintro rfl
      exact h.colon hc
    simpa using hcolon
  exact ⟨h.before, hopens, hprop, h.prop.tight, h.between, h.value.start,
    h.text.delimits h.trimmed.tight hblank hstop⟩

namespace Node

mutual

/-- **A node with its shape is read at its place** if it is delimited and, where no semicolon
    closes it, leaves the blanks behind it to its block. -/
theorem reads_of_isDelimited {after : Text} {stop : Option Char}
    (hstop : ∀ c ∈ stop, c = '{' ∨ c = ';' ∨ c = '}') :
    ∀ {node : Node} {closed : Bool}, (∀ inner ∈ node.preorder, inner.HasShape Text.IsClosed) →
      (∀ inner ∈ node.preorder, inner.IsDelimited) →
      (closed = false → node.LeavesBehind after) → node.Reads after stop closed
  | .rule head children, _, hshape, hdelimited, _ => by
    rw [preorder, List.forall_mem_cons] at hshape hdelimited
    have hhead : head.HasShape Text.IsClosed := hshape.1
    exact ⟨hhead.reads, allRead_of_isDelimited (by simp) hhead.after (Or.inl rfl) hshape.2
      hdelimited.1 hdelimited.2⟩
  | .atBlock head children, _, hshape, hdelimited, _ => by
    rw [preorder, List.forall_mem_cons] at hshape hdelimited
    obtain ⟨⟨hhead, hafter⟩, hchildren⟩ := hshape
    obtain ⟨⟨hseparated, hends⟩, hinner⟩ := hdelimited
    exact ⟨hhead.reads hseparated hhead.between hhead.empty (by simp),
      allRead_of_isDelimited (by simp) hafter (Or.inl rfl) hchildren hends hinner⟩
  | .atLine head, closed, hshape, hdelimited, hleaves => by
    have hhead : head.HasShape Text.IsClosed := hshape (.atLine head) (by simp [preorder])
    obtain ⟨hseparated, hline⟩ := hdelimited (.atLine head) (by simp [preorder])
    cases closed with
    | true => exact ⟨hline, nofun, hhead.reads hseparated hhead.between hhead.empty (by simp)⟩
    | false =>
      obtain ⟨hnone, hblank, hempty⟩ := hleaves rfl
      exact ⟨hline, fun _ => hnone, hhead.reads hseparated hblank hempty hstop⟩
  | .declaration decl, closed, hshape, _, hleaves => by
    have hdecl : decl.HasShape Text.IsClosed := hshape (.declaration decl) (by simp [preorder])
    cases closed with
    | true => exact ⟨nofun, hdecl.reads hdecl.after (by simp)⟩
    | false =>
      obtain ⟨hnone, hblank⟩ := hleaves rfl
      exact ⟨fun _ => hnone, hdecl.reads hblank hstop⟩
  | .comment note, _, hshape, hdelimited, _ => by
    have hbefore : note.before.IsFiller := hshape (.comment note) (by simp [preorder])
    exact ⟨hbefore, hdelimited (.comment note) (by simp [preorder])⟩

theorem allRead_of_isDelimited {after : Text} {stop : Option Char}
    (hstop : ∀ c ∈ stop, c = '{' ∨ c = ';' ∨ c = '}') (hafter : after.IsFiller)
    {semicolon : Bool} :
    ∀ {nodes : List Node} {closed : Bool}, closed = false ∨ nodes ≠ [] →
      (∀ inner ∈ preorderAll nodes, inner.HasShape Text.IsClosed) →
      BlockEnds after semicolon nodes → (∀ inner ∈ preorderAll nodes, inner.IsDelimited) →
        AllRead after stop semicolon closed nodes
  | [], closed, hclosed, _, hends, _ => by
    have hopen : closed = false := hclosed.resolve_right (by simp)
    exact ⟨hafter, hopen.trans (blockEnds_nil.mp hends).symm⟩
  | [node], _, _, hshape, hends, hdelimited => by
    rw [preorderAll, preorderAll, List.append_nil] at hshape hdelimited
    obtain ⟨hclosed, hunclosed⟩ := blockEnds_singleton.mp hends
    refine ⟨reads_of_isDelimited hstop hshape hdelimited ?_, hafter, ?_⟩
    · intro hopen
      cases semicolon with
      | true => simp [isClosed, hclosed rfl] at hopen
      | false => exact hunclosed rfl
    · cases semicolon with
      | true => simp [isClosed, hclosed rfl]
      | false => simp [isClosed]
  | node :: next :: rest, _, _, hshape, hends, hdelimited => by
    rw [preorderAll, List.forall_mem_append] at hshape hdelimited
    -- In front of another node a semicolon closes every node that takes one.
    have hleaves : node.isClosed semicolon (next :: rest) = false → node.LeavesBehind after := by
      intro hopen
      apply leavesBehind_of_not_takesSemicolon
      by_contra htakes
      rw [isClosed_of_rest (by simp) (by simpa using htakes)] at hopen
      cases hopen
    exact ⟨reads_of_isDelimited hstop hshape.1 hdelimited.1 hleaves,
      allRead_of_isDelimited hstop hafter (Or.inr (by simp)) hshape.2
        (blockEnds_cons_cons.mp hends) hdelimited.2⟩

end

end Node

/-! ### From reading to shapes -/

theorem Text.StartsPlainly.of_append {a b : Text} (h : (a ++ b).StartsPlainly) :
    a.StartsPlainly := by
  constructor
  · intro hat
    exact h.1 (hat.trans (List.prefix_append a b))
  · intro hcomment
    exact h.2 (hcomment.trans (List.prefix_append a b))

theorem start_of_opensStatement {t : Text} (h : opensStatement t = true) :
    StartsOff isWhiteSpace t ∧ t.StartsPlainly := by
  rcases t with _ | ⟨c, t⟩
  · cases h
  simp only [opensStatement, isFiller, Bool.and_eq_true, Bool.not_eq_true', Bool.or_eq_false_iff,
    bne_iff_ne, ne_eq] at h
  obtain ⟨⟨⟨⟨hwhite, -⟩, -⟩, hat⟩, hslash⟩ := h
  refine ⟨Text.startsOff_cons.mpr hwhite, ?_, ?_⟩
  · intro hprefix
    exact hat (List.cons_prefix_cons.mp hprefix).1.symm
  · intro hprefix
    obtain ⟨rfl, rest, rfl⟩ := List.cons_prefix_cons.mp hprefix
    simp at hslash

theorem Statement.Delimits.isUnbroken {text trailing : Text} {stop : Option Char}
    (h : Statement.Delimits text trailing stop) : text.IsUnbroken := by
  have hthrough := h.through
  rw [Lexis.runsThrough_append, Bool.and_eq_true] at hthrough
  exact hthrough.1

theorem Rule.Reads.hasShape {head : Rule} (h : head.Reads) (hafter : head.raws.after.IsFiller) :
    head.HasShape Text.IsUnbroken := by
  have hopens := h.opens
  rw [List.append_assoc] at hopens
  obtain ⟨hstart, hplainly⟩ := start_of_opensStatement hopens
  refine ⟨h.before, h.statement.blank, hafter, h.statement.isUnbroken,
    ⟨hstart.of_append, h.statement.tight⟩, hplainly.of_append, ?_⟩
  intro hempty
  rw [hempty, List.nil_append] at hstart
  rcases hbetween : head.raws.between with _ | ⟨c, between⟩
  · rfl
  · have hblank := h.statement.blank c (by simp [hbetween])
    rw [hbetween] at hstart
    rw [Text.startsOff_cons.mp hstart] at hblank
    cases hblank

theorem AtRule.Reads.hasShape {head : AtRule} {trailing : Text} {stop : Option Char}
    (h : head.Reads trailing stop)
    (hbetween : head.raws.between = trailing ∨ head.raws.between = []) :
    head.HasShape Text.IsUnbroken := by
  refine ⟨h.before, h.named, h.name, h.afterName, ?_, h.statement.isUnbroken,
    ⟨h.params.of_append, h.statement.tight⟩, ?_⟩
  · rcases hbetween with hbetween | hbetween
    · rw [hbetween]
      exact h.statement.blank
    · rw [hbetween]
      exact Text.isBlank_nil
  · intro hempty
    rcases hbetween with hbetween | hbetween
    · rw [hbetween]
      exact Piece.trailing_eq_nil_of_stands h.toStands hempty
    · exact hbetween

theorem Declaration.Reads.hasShape {decl : Declaration} {trailing : Text} {stop : Option Char}
    (h : decl.Reads trailing stop) (hafter : IsBlank decl.after) :
    decl.HasShape Text.IsUnbroken := by
  obtain ⟨hstart, hplainly⟩ := start_of_opensStatement h.opens
  have htrimmed : decl.text.IsTrimmed := ⟨hstart, h.statement.tight⟩
  have hvalue : IsTight decl.value := htrimmed.of_append.2
  have hprop : StartsOff isWhiteSpace decl.prop := by
    have hfront := hstart
    rw [Declaration.text, List.append_assoc] at hfront
    exact hfront.of_append
  have hcolon : ':' ∉ decl.prop := by
    intro hmem
    exact absurd (h.prop ':' hmem) (by decide)
  exact ⟨h.before, hafter, h.between, ⟨hprop, h.tight⟩, hcolon, ⟨h.value, hvalue⟩,
    h.statement.isUnbroken, htrimmed, hplainly⟩

namespace Node

theorem leavesBehind_of_reads {node : Node} {after : Text} {stop : Option Char}
    (h : node.Reads after stop false) : node.LeavesBehind after := by
  match node, h with
  | .rule _ _, _ => exact trivial
  | .atBlock _ _, _ => exact trivial
  | .atLine head, ⟨_, hbetween, hhead⟩ =>
    exact ⟨hbetween rfl, hhead.statement.blank, Piece.trailing_eq_nil_of_stands hhead.toStands⟩
  | .declaration decl, ⟨hafter, hdecl⟩ => exact ⟨hafter rfl, hdecl.statement.blank⟩
  | .comment _, _ => exact trivial

theorem blockEnds_of_allRead {after : Text} {stop : Option Char} {semicolon : Bool} :
    ∀ {nodes : List Node} {closed : Bool}, closed = false ∨ nodes ≠ [] →
      AllRead after stop semicolon closed nodes → BlockEnds after semicolon nodes
  | [], closed, hclosed, ⟨_, hsame⟩ => by
    have hopen : closed = false := hclosed.resolve_right (by simp)
    exact blockEnds_nil.mpr (hsame.symm.trans hopen)
  | [node], _, _, ⟨hnode, _, hsame⟩ => by
    apply blockEnds_singleton.mpr
    rw [hsame] at hnode
    constructor
    · intro hsemicolon
      rw [hsemicolon, isClosed] at hsame
      simpa using hsame
    · intro hsemicolon
      rw [hsemicolon] at hnode
      exact leavesBehind_of_reads hnode
  | _ :: next :: rest, _, _, ⟨_, hrest⟩ =>
    blockEnds_cons_cons.mpr (blockEnds_of_allRead (Or.inr (by simp)) hrest)

mutual

theorem hasShape_of_reads {after : Text} {stop : Option Char} :
    ∀ {node : Node} {closed : Bool}, node.Reads after stop closed →
      ∀ inner ∈ node.preorder, inner.HasShape Text.IsUnbroken ∧ inner.IsDelimited
  | .rule head children, _, ⟨hhead, hchildren⟩ => by
    rw [preorder, List.forall_mem_cons]
    refine ⟨⟨?_, blockEnds_of_allRead (Or.inl rfl) hchildren⟩, hasShape_of_allRead hchildren⟩
    exact hhead.hasShape (Stylesheet.isFiller_of_allRead hchildren)
  | .atBlock head children, _, ⟨hhead, hchildren⟩ => by
    rw [preorder, List.forall_mem_cons]
    refine ⟨⟨⟨hhead.hasShape (Or.inl rfl), ?_⟩, hhead.separated, ?_⟩,
      hasShape_of_allRead hchildren⟩
    · exact Stylesheet.isFiller_of_allRead hchildren
    · exact blockEnds_of_allRead (Or.inl rfl) hchildren
  | .atLine head, closed, ⟨hline, hbetween, hhead⟩ => by
    rw [preorder, List.forall_mem_singleton]
    refine ⟨hhead.hasShape ?_, hhead.separated, hline⟩
    cases closed with
    | true => exact Or.inl rfl
    | false => exact Or.inr (hbetween rfl)
  | .declaration decl, closed, ⟨hafter, hdecl⟩ => by
    rw [preorder, List.forall_mem_singleton]
    refine ⟨hdecl.hasShape ?_, trivial⟩
    cases closed with
    | true => exact hdecl.statement.blank
    | false =>
      rw [hafter rfl]
      exact Text.isBlank_nil
  | .comment note, _, hnote => by
    rw [preorder, List.forall_mem_singleton]
    exact ⟨hnote.before, hnote.text⟩

/-- **Nodes that are read have their shape and are delimited.** -/
theorem hasShape_of_allRead {after : Text} {stop : Option Char} {semicolon : Bool} :
    ∀ {nodes : List Node} {closed : Bool}, AllRead after stop semicolon closed nodes →
      ∀ inner ∈ preorderAll nodes, inner.HasShape Text.IsUnbroken ∧ inner.IsDelimited
  | [], _, _ => by simp [preorderAll]
  | _ :: _, _, ⟨hnode, hrest⟩ => by
    rw [preorderAll, List.forall_mem_append]
    exact ⟨hasShape_of_reads hnode, hasShape_of_allRead hrest⟩

end

end Node

/-! ### Spans -/

theorem AtRule.reads_withoutSpan {head : AtRule} {trailing : Text} {stop : Option Char} :
    ({ head with span := {} } : AtRule).Reads trailing stop ↔ head.Reads trailing stop := by
  constructor
  · intro h
    exact ⟨⟨h.before, h.named, h.name, h.afterName, h.params, h.statement⟩, h.separated⟩
  · intro h
    exact ⟨⟨h.before, h.named, h.name, h.afterName, h.params, h.statement⟩, h.separated⟩

namespace Node

mutual

theorem reads_erase {after : Text} {stop : Option Char} :
    ∀ {node : Node} {closed : Bool},
      node.erase.Reads after stop closed ↔ node.Reads after stop closed
  | .rule head children, closed => by
    have hhead : ({ head with span := {} } : Rule).Reads ↔ head.Reads :=
      ⟨fun h => ⟨h.before, h.opens, h.statement⟩, fun h => ⟨h.before, h.opens, h.statement⟩⟩
    exact and_congr hhead allRead_eraseAll
  | .atBlock head children, closed => by
    exact and_congr AtRule.reads_withoutSpan allRead_eraseAll
  | .atLine head, closed => by
    exact and_congr Iff.rfl (and_congr Iff.rfl AtRule.reads_withoutSpan)
  | .declaration decl, closed => by
    apply and_congr Iff.rfl
    constructor
    · intro h
      exact ⟨h.before, h.opens, h.prop, h.tight, h.between, h.value, h.statement⟩
    · intro h
      exact ⟨h.before, h.opens, h.prop, h.tight, h.between, h.value, h.statement⟩
  | .comment note, closed =>
    ⟨fun h => ⟨h.before, h.text⟩, fun h => ⟨h.before, h.text⟩⟩

theorem allRead_eraseAll {after : Text} {stop : Option Char} {semicolon : Bool} :
    ∀ {nodes : List Node} {closed : Bool},
      AllRead after stop semicolon closed (eraseAll nodes) ↔
        AllRead after stop semicolon closed nodes
  | [], _ => Iff.rfl
  | node :: rest, closed => by
    rw [eraseAll, allRead_cons, allRead_cons, isClosed_erase, reads_erase, allRead_eraseAll]

end

end Node

/-! ### Stylesheets -/

namespace Stylesheet

theorem reads_erase {sheet : Stylesheet} : sheet.erase.Reads ↔ sheet.Reads :=
  Node.allRead_eraseAll

theorem reads_of_parse {css : Text} {sheet : Stylesheet} (h : parse css = .ok sheet) :
    sheet.Reads := by
  obtain ⟨plain, hread, rfl⟩ := parse_eq_ok_iff.mp h
  obtain ⟨-, hplain, hreads⟩ := read_eq_ok_iff.mp hread
  rw [← reads_erase, erase_locate, hplain]
  exact hreads

theorem hasShape_of_reads {sheet : Stylesheet} (h : sheet.Reads) :
    sheet.HasShape Text.IsUnbroken ∧ sheet.IsDelimited := by
  have hnodes := Node.hasShape_of_allRead h
  constructor
  · exact ⟨isFiller_of_allRead h, fun node hnode => (hnodes node hnode).1⟩
  · exact ⟨Node.blockEnds_of_allRead (Or.inl rfl) h, fun node hnode => (hnodes node hnode).2⟩

theorem reads_of_hasShape {sheet : Stylesheet} (hshape : sheet.HasShape Text.IsClosed)
    (h : sheet.IsDelimited) : sheet.Reads :=
  Node.allRead_of_isDelimited (by simp) hshape.after (Or.inl rfl) hshape.nodes h.ends h.nodes

theorem exists_parse_print_iff {sheet : Stylesheet} :
    (∃ again, parse sheet.print = .ok again ∧ again.erase = sheet.erase) ↔ sheet.Reads := by
  rw [← reads_erase]
  constructor
  · rintro ⟨again, hparse, hsame⟩
    rw [← hsame, reads_erase]
    exact reads_of_parse hparse
  · intro hreads
    have hread := read_eq_ok_iff.mpr ⟨print_erase sheet, erase_erase sheet, hreads⟩
    refine ⟨_, parse_eq_ok_iff.mpr ⟨_, hread, rfl⟩, ?_⟩
    rw [erase_locate, erase_erase]

/-- **A tree of closed texts is parsed from its own text if and only if it is delimited.** -/
theorem parse_print_iff {sheet : Stylesheet} (hshape : sheet.HasShape Text.IsClosed) :
    (∃ again, parse sheet.print = .ok again ∧ again.erase = sheet.erase) ↔ sheet.IsDelimited := by
  rw [exists_parse_print_iff]
  constructor
  · intro hreads
    exact (hasShape_of_reads hreads).2
  · intro hdelimited
    exact reads_of_hasShape hshape hdelimited

/-- A rule inside a block at-rule behind an at-rule without a block, with braces and semicolons
    in strings and parentheses. -/
theorem parse_print_iff_nested :
    let sheet : Stylesheet := {
      nodes := [
        .atLine { name := "import".toList, params := "'a;b'".toList, afterName := [' '] },
        .atBlock
          { name := "media".toList, params := "(a:1)".toList, afterName := [' '],
            raws := { before := ['\n'], between := [' '], after := [';'] } }
          [.rule { selector := "p:q".toList, raws := { after := ['\n'] } }
            [.comment { text := ['{'], before := [' '] },
              .declaration { prop := ['x'], value := "url(;)".toList, between := " : ".toList }]]],
      after := ['\n'] }
    sheet.HasShape Text.IsClosed ∧ sheet.IsDelimited ∧
      ∃ again, parse sheet.print = .ok again ∧ again.erase = sheet.erase := by
  intro sheet
  have hshape : sheet.HasShape Text.IsClosed := by decide +kernel
  have hdelimited : sheet.IsDelimited := by decide +kernel
  exact ⟨hshape, hdelimited, (parse_print_iff hshape).mpr hdelimited⟩

/-- **Nothing hides between the nodes of a parsed tree.**  Each text of it has its shape, and no
    two of them run together. -/
theorem hasShape_of_parse {css : Text} {sheet : Stylesheet} (h : parse css = .ok sheet) :
    sheet.HasShape Text.IsUnbroken ∧ sheet.IsDelimited :=
  hasShape_of_reads (reads_of_parse h)

/-- Blanks and semicolons on both sides of every construct, in a rule and at the end. -/
theorem hasShape_of_parse_spaced :
    ∃ sheet, parse " ;@import  'a' ; p(\x7b) \x7b ; /*:*/ q : (;) ;; \x7d; ".toList = .ok sheet ∧
      sheet.HasShape Text.IsUnbroken ∧ sheet.IsDelimited := by
  have hread : read " ;@import  'a' ; p(\x7b) \x7b ; /*:*/ q : (;) ;; \x7d; ".toList = .ok {
      nodes := [
        .atLine
          { name := "import".toList, params := "'a'".toList, afterName := "  ".toList,
            raws := { before := " ;".toList, between := [' '] } },
        .rule
          { selector := "p(\x7b)".toList,
            raws := { before := [' '], between := [' '], after := "; ".toList, semicolon := true } }
          [.comment { text := [':'], before := " ; ".toList },
            .declaration
              { prop := ['q'], value := "(;)".toList, before := [' '], between := " : ".toList,
                after := [' '] }]],
      after := "; ".toList } := by
    cbv
  have h := parse_eq_ok_iff.mpr ⟨_, hread, rfl⟩
  exact ⟨_, h, hasShape_of_parse h⟩

end Stylesheet

end EmScale
