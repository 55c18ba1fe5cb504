/-
  EmScale/Proofs/Sheet/Reread.lean
  ================================
  **What becomes of an at-rule whose name touches its prelude.**

  If nothing stands between the name of an at-rule and its prelude, and the prelude starts
  with a letter or a digit, the name goes on into the prelude when the text is read again.
  `Node.rereadAll` is the tree that is read then.  Its text is the same, its at-rules are
  read at their places (`Node.allRead_rereadAll`), and a name that goes on gets longer
  (`AtRule.length_name_lt_reread`).  Where every name ends, nothing changes
  (`Stylesheet.reads_iff`).
-/
import EmScale.Proofs.Sheet.RoundTrip

namespace EmScale

open Unicode (isWhiteSpace)
open Text (IsBlank StartsOff)

/-! ### Heads of at-rules -/

namespace AtRule

/-- The text that the name of an at-rule is read from. -/
def source (head : AtRule) (trailing : Text) : Text :=
  head.name ++ (head.afterName ++ (head.params ++ trailing))

/-- An at-rule as it is read from its own text with the blanks `trailing` behind it, and what
    is left of these blanks. -/
def reread (head : AtRule) (trailing : Text) : AtRule × Text :=
  let behind := (head.source trailing).dropWhile isNameCharacter
  let rest := behind.dropWhile isWhiteSpace
  ({ head with
      name := (head.source trailing).takeWhile isNameCharacter,
      afterName := behind.takeWhile isWhiteSpace,
      params := Text.trimEnd rest },
    Text.trailing rest)

/-- An at-rule with other blanks behind its prelude and behind its last child. -/
def withBlanks (head : AtRule) (between after : Text) : AtRule :=
  { head with raws := { head.raws with between, after } }

@[simp] theorem raws_withBlanks (head : AtRule) (between after : Text) :
    (head.withBlanks between after).raws = { head.raws with between, after } := rfl

@[simp] theorem raws_reread (head : AtRule) (trailing : Text) :
    (head.reread trailing).1.raws = head.raws := rfl

theorem source_reread (head : AtRule) (trailing : Text) :
    (head.reread trailing).1.source (head.reread trailing).2 = head.source trailing := by
  unfold reread
  rw [source]
  dsimp only
  rw [Text.trimEnd_append_trailing, List.takeWhile_append_dropWhile,
    List.takeWhile_append_dropWhile]

variable {head : AtRule} {trailing : Text} {stop : Option Char}

theorem run_source (h : head.Stands trailing stop) {front rest : Text}
    (hfront : ∀ c ∈ front, Lexis.isInert c = true) (hwhole : head.source trailing = front ++ rest) :
    Lexis.runsThrough {} rest = true ∧ (Lexis.run {} rest).EndsAt stop := by
  have hname := Piece.isInert_name h.name h.afterName
  rw [source, ← List.append_assoc] at hwhole
  have hthrough := Lexis.runsThrough_append {} (head.name ++ head.afterName)
    (head.params ++ trailing)
  have hrun := Lexis.run_append {} (head.name ++ head.afterName) (head.params ++ trailing)
  rw [hwhole, Lexis.runsThrough_append, Lexis.runsThrough_of_isInert hfront,
    Lexis.run_start_of_isInert hfront, Lexis.runsThrough_of_isInert hname,
    Lexis.run_start_of_isInert hname, h.statement.through] at hthrough
  rw [hwhole, Lexis.run_append, Lexis.run_start_of_isInert hfront,
    Lexis.run_start_of_isInert hname] at hrun
  exact ⟨by simpa using hthrough, hrun ▸ h.statement.ends⟩

theorem name_reread (h : head.Stands trailing stop) :
    (head.reread trailing).1.name =
      head.name ++ (head.afterName ++ (head.params ++ trailing)).takeWhile isNameCharacter :=
  List.takeWhile_append_of_pos h.name

/-- **An at-rule that is reread is read.** -/
theorem reads_reread (h : head.Stands trailing stop) :
    (head.reread trailing).1.Reads (head.reread trailing).2 stop := by
  have hwhole := List.takeWhile_append_dropWhile (p := isNameCharacter) (l := head.source trailing)
  have hoff := Text.startsOff_dropWhile isNameCharacter (head.source trailing)
  have hname : ∀ c ∈ (head.source trailing).takeWhile isNameCharacter, isNameCharacter c = true :=
    fun _ hc => Text.mem_takeWhile hc
  -- The text is cut where the name ends and again where the blanks behind it end.
  have hnamed := name_reread h
  simp only [reread] at hnamed ⊢
  generalize (head.source trailing).takeWhile isNameCharacter = name at *
  generalize (head.source trailing).dropWhile isNameCharacter = behind at *
  have hbehind := List.takeWhile_append_dropWhile (p := isWhiteSpace) (l := behind)
  have hblank := Text.isBlank_takeWhile behind
  have hoff' := Text.startsOff_dropWhile isWhiteSpace behind
  generalize behind.takeWhile isWhiteSpace = afterName at *
  generalize behind.dropWhile isWhiteSpace = rest at *
  have htrim := Text.trimEnd_append_trailing rest
  have hfront := Piece.isInert_name hname hblank
  obtain ⟨hthrough, hends⟩ :=
    run_source h hfront (by rw [List.append_assoc, hbehind, hwhole])
  rw [← hbehind, ← htrim, ← List.append_assoc] at hoff
  rw [← htrim] at hthrough hends hoff'
  exact {
    before := h.before
    named := by
      rw [hnamed]
      exact List.append_ne_nil_of_left_ne_nil h.named _
    name := hname
    afterName := hblank
    params := hoff'
    statement := ⟨Text.isTight_trimEnd rest, Text.isBlank_trailing rest, hthrough, hends⟩
    separated := hoff.of_append }

theorem reread_eq_self (h : head.Reads trailing stop) :
    head.reread trailing = (head, trailing) := by
  have hseparated : StartsOff isNameCharacter (head.afterName ++ (head.params ++ trailing)) := by
    rw [← List.append_assoc]
    apply h.separated.append
    intro hempty
    rw [Piece.trailing_eq_nil_of_stands h.toStands (List.append_eq_nil_iff.mp hempty).2]
    exact Text.startsOff_nil _
  obtain ⟨htake, hdrop⟩ := Text.takeWhile_append_of_startsOff h.name hseparated
  obtain ⟨htake', hdrop'⟩ := Text.takeWhile_append_of_startsOff h.afterName h.params
  obtain ⟨htrim, htrail⟩ := Text.trimEnd_append_of_isTight h.statement.tight h.statement.blank
  simp only [reread, source, htake, hdrop, htake', hdrop', htrim, htrail]

/-- **A name that is not separated goes on.** -/
theorem length_name_lt_reread (h : head.Stands trailing stop) (hglued : ¬ head.IsSeparated) :
    head.name.length < (head.reread trailing).1.name.length := by
  rw [name_reread h, ← List.append_assoc]
  rcases hparts : head.afterName ++ head.params with _ | ⟨c, t⟩
  · exact absurd (by rw [IsSeparated, hparts]; exact Text.startsOff_nil _) hglued
  · have hc : isNameCharacter c = true := by
      by_contra hc
      exact hglued (by rw [IsSeparated, hparts]; simpa using hc)
    simp [hc]

theorem Reads.withBlanks (h : head.Reads trailing stop) (between after : Text) :
    (head.withBlanks between after).Reads trailing stop :=
  ⟨⟨h.before, h.named, h.name, h.afterName, h.params, h.statement⟩, h.separated⟩

theorem print_eq_source (head : AtRule) : head.print = '@' :: head.source head.raws.between := by
  simp [print, source]

theorem print_reread (head : AtRule) (after : Text) :
    ((head.reread head.raws.between).1.withBlanks (head.reread head.raws.between).2 after).print =
      head.print := by
  rw [print_eq_source, print_eq_source, ← source_reread head head.raws.between]
  rfl

theorem reads_iff : head.Reads trailing stop ↔ head.Stands trailing stop ∧ head.IsSeparated :=
  ⟨fun h => ⟨h.toStands, h.separated⟩, fun h => ⟨h.1, h.2⟩⟩

end AtRule

/-! ### Trees -/

mutual

/-- A node as it is read from its own text, and what is left of the blanks `after` behind it.
    `closed` tells whether a semicolon closes it. -/
def Node.reread (closed : Bool) (after : Text) : Node → Node × Text
  | .rule head children =>
    let inner := Node.rereadAll head.raws.semicolon head.raws.after children
    (.rule { head with raws := { head.raws with after := inner.2 } } inner.1, after)
  | .atBlock head children =>
    let outer := head.reread head.raws.between
    let inner := Node.rereadAll head.raws.semicolon head.raws.after children
    (.atBlock (outer.1.withBlanks outer.2 inner.2) inner.1, after)
  | .atLine head =>
    let outer := head.reread (if closed then head.raws.between else after)
    if closed then (.atLine (outer.1.withBlanks outer.2 head.raws.after), after)
    else (.atLine outer.1, outer.2)
  | .declaration decl => (.declaration decl, after)
  | .comment note => (.comment note, after)

/-- The nodes of a block as they are read from their own text, and what is left of the blanks
    `after` behind them. -/
def Node.rereadAll (semicolon : Bool) (after : Text) : List Node → List Node × Text
  | [] => ([], after)
  | node :: rest =>
    let first := node.reread (node.isClosed semicolon rest) after
    let others := Node.rereadAll semicolon first.2 rest
    (first.1 :: others.1, others.2)

end

namespace Node

@[simp] theorem takesSemicolon_reread (closed : Bool) (after : Text) (node : Node) :
    (node.reread closed after).1.takesSemicolon = node.takesSemicolon := by
  cases node <;> cases closed <;> rfl

@[simp] theorem before_reread (closed : Bool) (after : Text) (node : Node) :
    (node.reread closed after).1.before = node.before := by
  cases node <;> cases closed <;> rfl

@[simp] theorem declares_reread (prop value : Text) (closed : Bool) (after : Text) (node : Node) :
    (node.reread closed after).1.declares prop value = node.declares prop value := by
  cases node <;> cases closed <;> rfl

theorem any_declares_rereadAll (prop value : Text) (semicolon : Bool) (after : Text)
    (nodes : List Node) :
    (rereadAll semicolon after nodes).1.any (declares prop value) =
      nodes.any (declares prop value) := by
  induction nodes generalizing after with
  | nil => rfl
  | cons node rest ih => simp [rereadAll, ih]

theorem declaration_mem_rereadAll {decl : Declaration} {semicolon : Bool} {after : Text}
    {nodes : List Node} :
    declaration decl ∈ (rereadAll semicolon after nodes).1 ↔ declaration decl ∈ nodes := by
  induction nodes generalizing after with
  | nil => rfl
  | cons node rest ih =>
    have hnode : declaration decl = (node.reread (node.isClosed semicolon rest) after).1 ↔
        declaration decl = node := by
      cases node with
      | atLine head => cases (atLine head).isClosed semicolon rest <;> simp [reread]
      | _ => simp [reread]
    rw [rereadAll, List.mem_cons, List.mem_cons, ih, hnode]

@[simp] theorem isEmpty_rereadAll (semicolon : Bool) (after : Text) (nodes : List Node) :
    (rereadAll semicolon after nodes).1.isEmpty = nodes.isEmpty := by
  cases nodes <;> rfl

@[simp] theorem isClosed_reread (semicolon closed : Bool) (after after' : Text)
    (rest : List Node) (node : Node) :
    (node.reread closed after).1.isClosed semicolon (rereadAll semicolon after' rest).1 =
      node.isClosed semicolon rest := by
  simp [isClosed]

theorem printAll_rereadAll_cons (semicolon : Bool) (after : Text) (node : Node)
    (rest : List Node) :
    printAll semicolon (rereadAll semicolon after (node :: rest)).1 ++
        (rereadAll semicolon after (node :: rest)).2 =
      let first := node.reread (node.isClosed semicolon rest) after
      node.before ++ (first.1.body ++ (node.closer semicolon rest ++
        (printAll semicolon (rereadAll semicolon first.2 rest).1 ++
          (rereadAll semicolon first.2 rest).2))) := by
  simp [rereadAll, printAll, closer]

theorem isClosed_of_rest {semicolon : Bool} {node : Node} {rest : List Node} (hrest : rest ≠ [])
    (h : node.takesSemicolon = true) : node.isClosed semicolon rest = true := by
  simp [isClosed, h, hrest]

theorem snd_reread {node : Node} {closed : Bool}
    (h : node.takesSemicolon = true → closed = true) (after : Text) :
    (node.reread closed after).2 = after := by
  cases node with
  | atLine head =>
    rw [h rfl]
    rfl
  | _ => rfl

@[simp] theorem snd_reread_closed (node : Node) (after : Text) :
    (node.reread true after).2 = after :=
  snd_reread (fun _ => rfl) after

theorem isFiller_snd_reread {closed : Bool} {node : Node} {after : Text}
    (h : after.IsFiller) : (node.reread closed after).2.IsFiller := by
  cases node with
  | atLine head =>
    cases closed with
    | true => exact h
    | false => exact (Text.isBlank_trailing _).isFiller
  | _ => exact h

theorem fits_congr_behind {Q : AtRule → Text → Option Char → Prop} {closed : Bool} {node : Node}
    (h : node.takesSemicolon = true → closed = true) {after after' : Text}
    {stop stop' : Option Char} (hfits : node.Fits Q after stop closed) :
    node.Fits Q after' stop' closed := by
  cases node with
  | atLine head | declaration decl =>
    rw [h rfl] at hfits ⊢
    exact hfits
  | _ => exact hfits

/-! ### What is reread is read -/

mutual

theorem reads_reread {after : Text} {stop : Option Char} :
    ∀ {node : Node} {closed : Bool}, node.Fits AtRule.Stands after stop closed →
      (node.reread closed after).1.Reads (node.reread closed after).2 stop closed
  | .rule _ _, _, ⟨hhead, hchildren⟩ =>
    ⟨⟨hhead.before, hhead.opens, hhead.statement⟩, allRead_rereadAll hchildren⟩
  | .atBlock _ _, _, ⟨hhead, hchildren⟩ =>
    ⟨(AtRule.reads_reread hhead).withBlanks _ _, allRead_rereadAll hchildren⟩
  | .atLine _, true, ⟨hline, _, hhead⟩ =>
    ⟨hline, nofun, (AtRule.reads_reread hhead).withBlanks _ _⟩
  | .atLine _, false, ⟨hline, hbetween, hhead⟩ =>
    ⟨hline, hbetween, AtRule.reads_reread hhead⟩
  | .declaration _, _, hdecl => hdecl
  | .comment _, _, hnote => hnote

/-- **What is reread is read.** -/
theorem allRead_rereadAll {after : Text} {stop : Option Char} {semicolon : Bool} :
    ∀ {nodes : List Node} {closed : Bool},
      AllFit AtRule.Stands after stop semicolon closed nodes →
        AllRead (rereadAll semicolon after nodes).2 stop semicolon closed
          (rereadAll semicolon after nodes).1
  | [], closed, h => h
  | node :: [], closed, ⟨hnode, hafter, hclosed⟩ => by
    have hnode := reads_reread hnode
    refine ⟨?_, isFiller_snd_reread hafter, ?_⟩
    · rw [isClosed_reread]
      exact hnode
    · rw [isClosed_reread]
      exact hclosed
  | node :: next :: rest, closed, ⟨hnode, hrest⟩ => by
    -- A semicolon closes `node` if one can, so the blanks behind the block stay behind `rest`.
    have hlast : node.takesSemicolon = true → node.isClosed semicolon (next :: rest) = true :=
      isClosed_of_rest (by simp)
    have hnode := reads_reread hnode
    have hrest := allRead_rereadAll hrest
    rw [← snd_reread hlast after] at hrest
    constructor
    · rw [isClosed_reread]
      exact fits_congr_behind (by simpa using hlast) hnode
    · rw [isClosed_reread]
      exact hrest

end

/-! ### Rereading keeps the text -/

mutual

theorem body_reread {Q : AtRule → Text → Option Char → Prop} {after : Text} {stop : Option Char} :
    ∀ {node : Node} {closed : Bool}, node.Fits Q after stop closed →
      (node.reread closed after).1.body ++ (node.reread closed after).2 = node.body ++ after
  | .rule head children, _, ⟨_, hchildren⟩ => by
    have hinner := congrArg (· ++ '}' :: after) (printAll_rereadAll hchildren)
    simpa [reread, body] using hinner
  | .atBlock head children, _, ⟨_, hchildren⟩ => by
    have hinner := congrArg (· ++ '}' :: after) (printAll_rereadAll hchildren)
    simpa [reread, body, AtRule.print_reread] using hinner
  | .atLine head, true, _ => by
    simp only [reread, body, if_true, AtRule.print_reread]
  | .atLine head, false, ⟨_, hbetween, _⟩ => by
    have houter := AtRule.source_reread head after
    have hnone : head.raws.between = [] := hbetween rfl
    have hnone' : (head.reread after).1.raws.between = [] := hnone
    simpa [reread, body, AtRule.print_eq_source, AtRule.source, hnone, hnone'] using houter
  | .declaration _, _, _ => rfl
  | .comment _, _, _ => rfl

/-- **Rereading keeps the text.** -/
theorem printAll_rereadAll {Q : AtRule → Text → Option Char → Prop} {after : Text}
    {stop : Option Char} {semicolon : Bool} : ∀ {nodes : List Node} {closed : Bool},
      AllFit Q after stop semicolon closed nodes →
        printAll semicolon (rereadAll semicolon after nodes).1 ++
            (rereadAll semicolon after nodes).2 =
          printAll semicolon nodes ++ after
  | [], closed, _ => rfl
  | node :: [], _, ⟨hnode, _⟩ => by
    have hbody := body_reread hnode
    rw [printAll_rereadAll_cons]
    cases hclosed : node.isClosed semicolon [] with
    | true =>
      rw [hclosed, snd_reread_closed, List.append_cancel_right_eq] at hbody
      simp [rereadAll, printAll, hbody]
    | false =>
      rw [hclosed] at hbody
      simp [rereadAll, printAll, closer, hclosed, hbody]
  | node :: next :: rest, _, ⟨hnode, hrest⟩ => by
    have hlast : node.takesSemicolon = true → node.isClosed semicolon (next :: rest) = true :=
      isClosed_of_rest (by simp)
    have hbody := body_reread hnode
    rw [snd_reread hlast, List.append_cancel_right_eq] at hbody
    rw [printAll_rereadAll_cons]
    dsimp only
    rw [snd_reread hlast, hbody, printAll_rereadAll hrest]
    simp [printAll]

end

/-! ### Spans -/

theorem reread_withoutSpan (head : AtRule) (trailing : Text) :
    ({ head with span := {} } : AtRule).reread trailing =
      ({ (head.reread trailing).1 with span := {} }, (head.reread trailing).2) := rfl

mutual

theorem reread_erase (closed : Bool) (after : Text) : ∀ node : Node,
    node.erase.reread closed after =
      ((node.reread closed after).1.erase, (node.reread closed after).2)
  | .rule head children => by
    simp [erase, reread, rereadAll_eraseAll _ _ children]
  | .atBlock head children => by
    simp [erase, reread, rereadAll_eraseAll _ _ children, reread_withoutSpan, AtRule.withBlanks]
  | .atLine head => by
    cases closed <;> rfl
  | .declaration _ | .comment _ => rfl

theorem rereadAll_eraseAll (semicolon : Bool) (after : Text) : ∀ nodes : List Node,
    rereadAll semicolon after (eraseAll nodes) =
      (eraseAll (rereadAll semicolon after nodes).1, (rereadAll semicolon after nodes).2)
  | [] => rfl
  | node :: rest => by
    simp [eraseAll, rereadAll, reread_erase _ _ node, rereadAll_eraseAll semicolon _ rest]

end

/-! ### Where every name ends -/

/-- A node that is no at-rule, or one whose name does not go on into its prelude. -/
def IsSeparated : Node → Prop
  | atBlock head _ | atLine head => head.IsSeparated
  | rule .. | declaration _ | comment _ => True

instance (node : Node) : Decidable node.IsSeparated := by
  cases node <;> unfold IsSeparated <;> infer_instance

@[simp] theorem isSeparated_erase (node : Node) : node.erase.IsSeparated ↔ node.IsSeparated := by
  cases node <;> rfl

@[simp] theorem isSeparated_rule (head : Rule) (children : List Node) :
    (rule head children).IsSeparated ↔ True := Iff.rfl

@[simp] theorem isSeparated_atBlock (head : AtRule) (children : List Node) :
    (atBlock head children).IsSeparated ↔ head.IsSeparated := Iff.rfl

@[simp] theorem isSeparated_atLine (head : AtRule) :
    (atLine head).IsSeparated ↔ head.IsSeparated := Iff.rfl

mutual

theorem fits_reads_iff {after : Text} {stop : Option Char} :
    ∀ {node : Node} {closed : Bool}, node.Fits AtRule.Reads after stop closed ↔
      node.Fits AtRule.Stands after stop closed ∧ ∀ inner ∈ node.preorder, inner.IsSeparated
  | .rule head children, closed => by
    have hchildren :=
      @allFit_reads_iff head.raws.after (some '}') head.raws.semicolon children false
    simp only [Fits, preorder, List.forall_mem_cons, isSeparated_rule, true_and]
    rw [hchildren, and_assoc]
  | .atBlock head children, closed => by
    have hchildren :=
      @allFit_reads_iff head.raws.after (some '}') head.raws.semicolon children false
    simp only [Fits, preorder, List.forall_mem_cons, isSeparated_atBlock]
    rw [hchildren, AtRule.reads_iff]
    exact and_and_and_comm
  | .atLine head, closed => by
    simp only [Fits, preorder, List.forall_mem_singleton, isSeparated_atLine]
    simp only [AtRule.reads_iff, and_assoc]
  | .declaration _, _ => by simp [Fits, preorder, IsSeparated]
  | .comment _, _ => by simp [Fits, preorder, IsSeparated]

/-- **Nodes are read if their shape is right and every name of an at-rule ends.** -/
theorem allFit_reads_iff {after : Text} {stop : Option Char} {semicolon : Bool} :
    ∀ {nodes : List Node} {closed : Bool}, AllFit AtRule.Reads after stop semicolon closed nodes ↔
      AllFit AtRule.Stands after stop semicolon closed nodes ∧
        ∀ inner ∈ preorderAll nodes, inner.IsSeparated
  | [], closed => by simp [AllFit, preorderAll]
  | node :: rest, closed => by
    have hnode := @fits_reads_iff after stop node (node.isClosed semicolon rest)
    have hrest := @allFit_reads_iff after stop semicolon rest (node.isClosed semicolon rest)
    simp only [AllFit, preorderAll, List.forall_mem_append]
    rw [hnode, hrest]
    exact and_and_and_comm

end

end Node

/-! ### Stylesheets -/

namespace Stylesheet

/-- A stylesheet as it is read from its own text. -/
def reread (sheet : Stylesheet) : Stylesheet :=
  { sheet with
    nodes := (Node.rereadAll sheet.semicolon sheet.after sheet.nodes).1,
    after := (Node.rereadAll sheet.semicolon sheet.after sheet.nodes).2 }

/-- A stylesheet whose nodes have their shape, but for names that may go on. -/
def Stands (sheet : Stylesheet) : Prop :=
  Node.AllFit AtRule.Stands sheet.after none sheet.semicolon false sheet.nodes

/-- **The text of a stylesheet is read as the stylesheet that is reread.** -/
theorem read_print {sheet : Stylesheet} (hplain : sheet.erase = sheet) (h : sheet.Stands) :
    read sheet.print = .ok sheet.reread := by
  refine read_eq_ok_iff.mpr ⟨?_, ?_, Node.allRead_rereadAll h⟩
  · exact Node.printAll_rereadAll h
  · have hnodes : Node.eraseAll sheet.nodes = sheet.nodes := congrArg nodes hplain
    have hinner := Node.rereadAll_eraseAll sheet.semicolon sheet.after sheet.nodes
    rw [hnodes] at hinner
    have hinner := congrArg Prod.fst hinner
    exact congrArg (fun nodes => { sheet.reread with nodes }) hinner.symm

theorem forall_isSeparated_erase {sheet : Stylesheet} :
    (∀ node ∈ sheet.erase.allNodes, node.IsSeparated) ↔
      ∀ node ∈ sheet.allNodes, node.IsSeparated := by
  simp [allNodes, erase, Node.preorderAll_eraseAll]

theorem reads_iff {sheet : Stylesheet} :
    sheet.Reads ↔ sheet.Stands ∧ ∀ node ∈ sheet.allNodes, node.IsSeparated :=
  Node.allFit_reads_iff

/-- A stylesheet stays when it is reread if and only if every name of an at-rule ends. -/
theorem reread_eq_self_iff {sheet : Stylesheet} (hplain : sheet.erase = sheet)
    (h : sheet.Stands) :
    sheet.reread = sheet ↔ ∀ node ∈ sheet.allNodes, node.IsSeparated := by
  have hread := read_print hplain h
  constructor
  · intro hsame
    rw [hsame] at hread
    exact (reads_iff.mp (read_eq_ok_iff.mp hread).2.2).2
  · intro hseparated
    have hagain := read_eq_ok_iff.mpr ⟨rfl, hplain, reads_iff.mpr ⟨h, hseparated⟩⟩
    exact Except.ok.inj (hread.symm.trans hagain)

end Stylesheet

end EmScale
