/-
  EmScale/Proofs/Converter/Transform.lean
  =======================================
  **What converting makes of a tree.**

  A declaration is left as it is, takes its converted value, or is followed by a declaration
  with that value.  The prelude of a media query may be converted.  Nothing else changes, so
  the nodes of a block that was read still have their shape at their places, but for a
  declaration that was put behind one that runs on (`Converter.allJoin_convertAll`).
-/
import EmScale.Converter.Transform
import EmScale.Proofs.Converter.Value
import EmScale.Proofs.Sheet.Rejoin

namespace EmScale

open Unicode (isWhiteSpace)
open Text (IsTight StartsOff)

/-! ### Tallies -/

namespace Tally

/-- Nothing was changed. -/
def IsIdle (tally : Tally) : Prop :=
  tally.replaced = 0 ∧ tally.fallbacks = 0 ∧ tally.mediaConverted = 0

instance (tally : Tally) : Decidable tally.IsIdle := by
  unfold IsIdle; infer_instance

theorem isIdle_empty : IsIdle {} := ⟨rfl, rfl, rfl⟩

section Add

variable (a b : Tally)

theorem replaced_add : (a + b).replaced = a.replaced + b.replaced := rfl

theorem fallbacks_add : (a + b).fallbacks = a.fallbacks + b.fallbacks := rfl

theorem skippedDuplicates_add :
    (a + b).skippedDuplicates = a.skippedDuplicates + b.skippedDuplicates := rfl

theorem mediaConverted_add : (a + b).mediaConverted = a.mediaConverted + b.mediaConverted := rfl

theorem empty_add : {} + a = a := by
  rcases a with ⟨replaced, fallbacks, skipped, media⟩
  change Tally.mk (0 + replaced) (0 + fallbacks) (0 + skipped) (0 + media) = _
  simp only [Nat.zero_add]

theorem add_empty : a + {} = a := rfl

theorem add_assoc (c : Tally) : a + b + c = a + (b + c) := by
  change Tally.mk (a.replaced + b.replaced + c.replaced) (a.fallbacks + b.fallbacks + c.fallbacks)
    (a.skippedDuplicates + b.skippedDuplicates + c.skippedDuplicates)
    (a.mediaConverted + b.mediaConverted + c.mediaConverted) = _
  simp only [Nat.add_assoc]
  rfl

end Add

@[simp] theorem isIdle_add {a b : Tally} : (a + b).IsIdle ↔ a.IsIdle ∧ b.IsIdle := by
  simp only [IsIdle, replaced_add, fallbacks_add, mediaConverted_add]
  omega

end Tally

namespace Converter

variable {converter : Converter}

/-! ### Steps -/

section Steps

variable (converter : Converter) (around : Surroundings) (block done : List Node)

theorem convertNode_rule (head : Rule) (children : List Node) :
    converter.convertNode around block (.rule head children) =
      let inner := converter.convertAll (around.insideRule head) [] children
      ([.rule head inner.1], inner.2) := rfl

theorem convertNode_atBlock (head : AtRule) (children : List Node) :
    converter.convertNode around block (.atBlock head children) =
      let outer := converter.convertHead head
      let inner := converter.convertAll (around.insideAtRule head) [] children
      ([.atBlock outer.1 inner.1], outer.2 + inner.2) := rfl

theorem convertNode_atLine (head : AtRule) :
    converter.convertNode around block (.atLine head) =
      ([.atLine (converter.convertHead head).1], (converter.convertHead head).2) := rfl

theorem convertNode_declaration (decl : Declaration) :
    converter.convertNode around block (.declaration decl) =
      let made := (converter.decide (around.contextOf decl)).emit block decl
      (made.2, made.1.tally) := rfl

theorem convertNode_comment (note : Comment) :
    converter.convertNode around block (.comment note) = ([.comment note], {}) := rfl

theorem convertAll_cons (node : Node) (rest : List Node) :
    converter.convertAll around done (node :: rest) =
      let first := converter.convertNode around (done ++ node :: rest) node
      let others := converter.convertAll around (done ++ first.1) rest
      (first.1 ++ others.1, first.2 + others.2) := rfl

theorem convertNode_ne_nil (node : Node) : (converter.convertNode around block node).1 ≠ [] := by
  cases node with
  | declaration decl =>
    rw [convertNode_declaration]
    unfold Decision.emit
    repeat' split
    all_goals simp
  | _ => exact List.cons_ne_nil _ _

theorem convertAll_ne_nil (node : Node) (rest : List Node) :
    (converter.convertAll around done (node :: rest)).1 ≠ [] :=
  List.append_ne_nil_of_left_ne_nil (converter.convertNode_ne_nil around _ node) _

end Steps

/-! ### Tallies of runs -/

mutual

theorem forall_tally_convertNode {P : Tally → Prop} (hempty : P {})
    (hadd : ∀ {a b : Tally}, P a → P b → P (a + b))
    (hhead : ∀ head, P (converter.convertHead head).2)
    (hdecl : ∀ around block decl, P (converter.convertNode around block (.declaration decl)).2) :
    ∀ (node : Node) (around : Surroundings) (block : List Node),
      P (converter.convertNode around block node).2
  | .rule head children, around, _ =>
    forall_tally_convertAll hempty hadd hhead hdecl children (around.insideRule head) []
  | .atBlock head children, around, _ => by
    have hinner := forall_tally_convertAll hempty hadd hhead hdecl children
      (around.insideAtRule head) []
    rw [convertNode_atBlock]
    exact hadd (hhead head) hinner
  | .atLine head, _, _ => hhead head
  | .declaration decl, around, block => hdecl around block decl
  | .comment _, _, _ => hempty

/-- What holds of the tallies of at-rules and declarations holds of the tally of a run, if
    sums of tallies keep it. -/
theorem forall_tally_convertAll {P : Tally → Prop} (hempty : P {})
    (hadd : ∀ {a b : Tally}, P a → P b → P (a + b))
    (hhead : ∀ head, P (converter.convertHead head).2)
    (hdecl : ∀ around block decl, P (converter.convertNode around block (.declaration decl)).2) :
    ∀ (nodes : List Node) (around : Surroundings) (done : List Node),
      P (converter.convertAll around done nodes).2
  | [], _, _ => hempty
  | node :: rest, around, done => by
    rw [convertAll_cons]
    exact hadd (forall_tally_convertNode hempty hadd hhead hdecl node around _)
      (forall_tally_convertAll hempty hadd hhead hdecl rest around _)

end

/-! ### Declarations -/

/-- A declaration of a block that is left as it is: it is kept, or its converted value is
    declared in the block already. -/
def Leaves (converter : Converter) (around : Surroundings) (block : List Node)
    (decl : Declaration) : Prop :=
  converter.decide (around.contextOf decl) = .keep ∨
    block.any (Node.declares decl.prop (converter.convertValue decl.value)) = true

/-- A declaration with its value converted. -/
def converted (converter : Converter) (decl : Declaration) : Declaration :=
  decl.withValue (converter.convertValue decl.value)

theorem decide_eq_of_ne_keep {context : DeclarationContext}
    (h : converter.decide context ≠ .keep) :
    converter.convertValue context.value ≠ context.value ∧
      converter.decide context =
        if converter.options.replace then .replace (converter.convertValue context.value)
        else .append (converter.convertValue context.value) := by
  unfold decide at h ⊢
  split
  · simp_all
  · dsimp only at h ⊢
    split <;> simp_all

theorem decide_eq_keep {context : DeclarationContext}
    (h : converter.convertValue context.value = context.value) :
    converter.decide context = .keep := by
  by_contra hne
  exact (decide_eq_of_ne_keep hne).1 h

section Declarations

variable {around : Surroundings} {block : List Node} {decl : Declaration}

theorem convertNode_of_leaves (h : converter.Leaves around block decl) :
    (converter.convertNode around block (.declaration decl)).1 = [.declaration decl] ∧
      (converter.convertNode around block (.declaration decl)).2.IsIdle := by
  by_cases hkeep : converter.decide (around.contextOf decl) = .keep
  · rw [convertNode_declaration, hkeep]
    exact ⟨rfl, rfl, rfl, rfl⟩
  · have hdeclared := h.resolve_left hkeep
    rw [convertNode_declaration, (decide_eq_of_ne_keep hkeep).2]
    cases converter.options.replace <;>
      simp [Decision.emit, Surroundings.contextOf, hdeclared, Emission.tally, Tally.IsIdle]

theorem convertNode_eq_of_not_leaves (h : ¬ converter.Leaves around block decl) :
    converter.convertNode around block (.declaration decl) =
      if converter.options.replace then
        ([.declaration (converter.converted decl)], { replaced := 1 })
      else
        ([.declaration decl, .declaration (converter.converted decl)], { fallbacks := 1 }) := by
  obtain ⟨hkeep, hdeclared⟩ := not_or.mp h
  rw [convertNode_declaration, (decide_eq_of_ne_keep hkeep).2]
  cases converter.options.replace <;>
    simp only [Decision.emit, Surroundings.contextOf, if_neg hdeclared, if_true,
      Bool.false_eq_true, if_false] <;>
    rfl

theorem convertNode_of_not_leaves (h : ¬ converter.Leaves around block decl) :
    (converter.convertNode around block (.declaration decl)).1 =
        (if converter.options.replace then [.declaration (converter.converted decl)]
        else [.declaration decl, .declaration (converter.converted decl)]) ∧
      ¬ (converter.convertNode around block (.declaration decl)).2.IsIdle := by
  rw [convertNode_eq_of_not_leaves h]
  cases converter.options.replace <;> simp [Tally.IsIdle]

theorem isIdle_convertNode_declaration :
    (converter.convertNode around block (.declaration decl)).2.IsIdle ↔
      converter.Leaves around block decl := by
  constructor
  · intro h
    by_contra hleaves
    exact (convertNode_of_not_leaves hleaves).2 h
  · intro h
    exact (convertNode_of_leaves h).2

theorem convertNode_declaration_cases (converter : Converter) (around : Surroundings)
    (block : List Node) (decl : Declaration) :
    (converter.convertNode around block (.declaration decl)).1 = [.declaration decl] ∨
      (converter.convertNode around block (.declaration decl)).1 =
        [.declaration (converter.converted decl)] ∨
      converter.options.replace = false ∧ ¬ converter.Leaves around block decl ∧
        (converter.convertNode around block (.declaration decl)).1 =
          [.declaration decl, .declaration (converter.converted decl)] := by
  by_cases h : converter.Leaves around block decl
  · exact Or.inl (convertNode_of_leaves h).1
  · have hmade := (convertNode_of_not_leaves h).1
    cases hreplace : converter.options.replace <;> simp_all

/-- Only declarations stand in the place of a declaration. -/
theorem exists_of_mem_convertNode_declaration {made : Node}
    (h : made ∈ (converter.convertNode around block (.declaration decl)).1) :
    ∃ other, made = .declaration other := by
  rcases converter.convertNode_declaration_cases around block decl with
    hmade | hmade | ⟨-, -, hmade⟩
  · rw [hmade] at h
    exact ⟨decl, List.mem_singleton.mp h⟩
  · rw [hmade] at h
    exact ⟨converter.converted decl, List.mem_singleton.mp h⟩
  · rw [hmade] at h
    rcases List.mem_cons.mp h with rfl | h
    · exact ⟨decl, rfl⟩
    · exact ⟨converter.converted decl, List.mem_singleton.mp h⟩

/-- A declaration that stands in the place of a node is the node, and is left as it is or
    followed by the converted one, or it is the converted one. -/
theorem declaration_mem_convertNode {node : Node}
    (h : .declaration decl ∈ (converter.convertNode around block node).1) :
    ∃ source, node = .declaration source ∧
      ((decl = source ∧ (converter.Leaves around block source ∨
        .declaration (converter.converted source) ∈ (converter.convertNode around block node).1)) ∨
          decl = converter.converted source) := by
  cases node with
  | declaration source =>
    refine ⟨source, rfl, ?_⟩
    by_cases hleaves : converter.Leaves around block source
    · rw [(convertNode_of_leaves hleaves).1, List.mem_singleton] at h
      cases h
      exact Or.inl ⟨rfl, Or.inl hleaves⟩
    · rw [(convertNode_of_not_leaves hleaves).1] at h ⊢
      cases hreplace : converter.options.replace <;> simp [hreplace] at h
      · exact h.imp_left fun h => ⟨h, Or.inr (by simp)⟩
      · exact Or.inr h
  | rule head children =>
    rw [convertNode_rule] at h
    simp at h
  | atBlock head children =>
    rw [convertNode_atBlock] at h
    simp at h
  | atLine head =>
    rw [convertNode_atLine] at h
    simp at h
  | comment note =>
    rw [convertNode_comment] at h
    simp at h

end Declarations

/-! ### Heads of at-rules -/

/-- The head of an at-rule is left as it is, or it is that of a media query and its prelude is
    converted to another one. -/
theorem convertHead_eq (converter : Converter) (head : AtRule) :
    converter.convertHead head = (head, {}) ∨
      (converter.options.mediaQuery = true ∧ head.isMedia = true) ∧
        converter.convertValue head.params ≠ head.params ∧
          converter.convertHead head =
            ({ head with params := converter.convertValue head.params },
              { mediaConverted := 1 }) := by
  unfold convertHead convertMedia?
  by_cases hmedia : head.isMedia = true
  · by_cases hquery : converter.options.mediaQuery = true
    · by_cases hparams : converter.convertValue head.params = head.params
      · simp [hmedia, hparams]
      · simp [hmedia, hquery, hparams]
    · simp [hmedia, hquery]
  · simp [hmedia]

theorem convertHead_cases (converter : Converter) (head : AtRule) :
    converter.convertHead head = (head, {}) ∨
      head.isMedia = true ∧ converter.convertMedia? head.params ≠ none ∧
        (converter.convertHead head).1 =
          { head with params := converter.convertValue head.params } := by
  rcases converter.convertHead_eq head with h | ⟨⟨hquery, hmedia⟩, hparams, h⟩
  · exact Or.inl h
  · exact Or.inr ⟨hmedia, by simp [convertMedia?, hquery, hparams], by rw [h]⟩

theorem convertHead_of_isIdle {head : AtRule} (h : (converter.convertHead head).2.IsIdle) :
    (converter.convertHead head).1 = head := by
  unfold convertHead at h ⊢
  split at h
  · rename_i hmedia
    rw [if_pos hmedia]
    split at h
    · exact absurd h.2.2 (by simp)
    · rfl
  · rename_i hmedia
    rw [if_neg hmedia]

theorem replaced_convertHead (converter : Converter) (head : AtRule) :
    (converter.convertHead head).2.replaced = 0 := by
  rcases converter.convertHead_eq head with h | ⟨-, -, h⟩ <;> rw [h]

theorem fallbacks_convertHead (converter : Converter) (head : AtRule) :
    (converter.convertHead head).2.fallbacks = 0 := by
  rcases converter.convertHead_eq head with h | ⟨-, -, h⟩ <;> rw [h]

/-- **Only the prelude of a head changes**, and what becomes of it depends on the name and on
    the prelude. -/
theorem convertHead_congr {head head' : AtRule} (hname : head'.name = head.name)
    (hparams : head'.params = head.params) :
    converter.convertHead head' =
      ({ head' with params := (converter.convertHead head).1.params },
        (converter.convertHead head).2) := by
  have hmedia : head'.isMedia = head.isMedia := by
    rw [AtRule.isMedia, AtRule.isNamed, hname, AtRule.isMedia, AtRule.isNamed]
  unfold convertHead
  rw [hmedia, hparams]
  split
  · split
    · rfl
    · rw [← hparams]
  · rw [← hparams]

theorem fst_convertHead (head : AtRule) :
    (converter.convertHead head).1 =
      { head with params := (converter.convertHead head).1.params } :=
  congrArg Prod.fst (convertHead_congr rfl rfl)

theorem raws_convertHead (head : AtRule) : (converter.convertHead head).1.raws = head.raws := by
  rw [fst_convertHead]

theorem isMedia_convertHead (head : AtRule) :
    (converter.convertHead head).1.isMedia = head.isMedia := by
  rw [fst_convertHead]
  rfl

/-- A converted head is a media query if the head was one. -/
theorem insideAtRule_convertHead (around : Surroundings) (head : AtRule) :
    around.insideAtRule (converter.convertHead head).1 = around.insideAtRule head := by
  rw [Surroundings.insideAtRule, isMedia_convertHead, Surroundings.insideAtRule]

/-! ### What the two modes count -/

/-- Where values are not replaced, no replacement is counted. -/
theorem replaced_convertAll (hreplace : converter.options.replace = false) (nodes : List Node)
    (around : Surroundings) (done : List Node) :
    (converter.convertAll around done nodes).2.replaced = 0 := by
  refine forall_tally_convertAll (P := fun tally => tally.replaced = 0) rfl ?_
    converter.replaced_convertHead ?_ nodes around done
  · intro a b ha hb
    rw [Tally.replaced_add, ha, hb]
  · intro around block decl
    by_cases h : converter.Leaves around block decl
    · exact (convertNode_of_leaves h).2.1
    · rw [convertNode_eq_of_not_leaves h, hreplace]
      rfl

/-- Where values are replaced, nothing is counted as put in. -/
theorem fallbacks_convertAll (hreplace : converter.options.replace = true) (nodes : List Node)
    (around : Surroundings) (done : List Node) :
    (converter.convertAll around done nodes).2.fallbacks = 0 := by
  refine forall_tally_convertAll (P := fun tally => tally.fallbacks = 0) rfl ?_
    converter.fallbacks_convertHead ?_ nodes around done
  · intro a b ha hb
    rw [Tally.fallbacks_add, ha, hb]
  · intro around block decl
    by_cases h : converter.Leaves around block decl
    · exact (convertNode_of_leaves h).2.2.1
    · rw [convertNode_eq_of_not_leaves h, hreplace]
      rfl

/-! ### Spans -/

theorem convertHead_withoutSpan (head : AtRule) :
    converter.convertHead { head with span := {} } =
      ({ (converter.convertHead head).1 with span := {} }, (converter.convertHead head).2) := by
  rw [fst_convertHead head]
  exact convertHead_congr rfl rfl

theorem emit_eraseAll (decision : Decision) (block : List Node) (decl : Declaration) :
    decision.emit (Node.eraseAll block) { decl with span := {} } =
      ((decision.emit block decl).1, Node.eraseAll (decision.emit block decl).2) := by
  cases decision with
  | keep => rfl
  | replace value | append value =>
    simp only [Decision.emit, Node.any_declares_eraseAll]
    split <;> rfl

mutual

theorem convertNode_erase : ∀ (node : Node) (around : Surroundings) (block : List Node),
    converter.convertNode around (Node.eraseAll block) node.erase =
      (Node.eraseAll (converter.convertNode around block node).1,
        (converter.convertNode around block node).2)
  | .rule head children, around, block => by
    have hinner := convertAll_eraseAll children (around.insideRule head) []
    rw [Node.erase, convertNode_rule, convertNode_rule]
    simp only [Surroundings.insideRule, Node.eraseAll, Node.erase] at hinner ⊢
    rw [hinner]
  | .atBlock head children, around, block => by
    have hinner := convertAll_eraseAll children (around.insideAtRule head) []
    have hinside : around.insideAtRule { head with span := {} } = around.insideAtRule head := rfl
    rw [Node.erase, convertNode_atBlock, convertNode_atBlock, convertHead_withoutSpan, hinside]
    simp only [Node.eraseAll, Node.erase] at hinner ⊢
    rw [hinner]
  | .atLine head, around, block => by
    rw [Node.erase, convertNode_atLine, convertNode_atLine, convertHead_withoutSpan]
    rfl
  | .declaration decl, around, block => by
    have hcontext : around.contextOf { decl with span := {} } = around.contextOf decl := rfl
    rw [Node.erase, convertNode_declaration, convertNode_declaration, hcontext, emit_eraseAll]
  | .comment _, _, _ => rfl

theorem convertAll_eraseAll : ∀ (nodes : List Node) (around : Surroundings) (done : List Node),
    converter.convertAll around (Node.eraseAll done) (Node.eraseAll nodes) =
      (Node.eraseAll (converter.convertAll around done nodes).1,
        (converter.convertAll around done nodes).2)
  | [], _, _ => rfl
  | node :: rest, around, done => by
    have hfirst := convertNode_erase node around (done ++ node :: rest)
    have hothers := convertAll_eraseAll rest around
      (done ++ (converter.convertNode around (done ++ node :: rest) node).1)
    rw [Node.eraseAll_append, Node.eraseAll] at hfirst
    rw [Node.eraseAll_append] at hothers
    rw [Node.eraseAll, convertAll_cons, convertAll_cons, hfirst]
    dsimp only
    rw [hothers, Node.eraseAll_append]

end

/-- **Converting does not look at spans.** -/
theorem transform_erase (converter : Converter) (path : Option Text) (sheet : Stylesheet) :
    converter.transform path sheet.erase =
      ((converter.transform path sheet).1.erase, (converter.transform path sheet).2) := by
  have hnodes := @convertAll_eraseAll converter sheet.nodes {} []
  rw [Node.eraseAll] at hnodes
  unfold transform
  split
  · rfl
  · simp only [Stylesheet.erase, hnodes]

/-- The places of nodes do not matter to what is made of them. -/
theorem transform_locate (path : Option Text) {plain : Stylesheet} (hplain : plain.erase = plain) :
    converter.transform path plain =
      ((converter.transform path plain.locate).1.erase,
        (converter.transform path plain.locate).2) := by
  have herase := converter.transform_erase path plain.locate
  rw [Stylesheet.erase_locate, hplain] at herase
  exact herase

theorem erase_transform (path : Option Text) {sheet : Stylesheet} (hplain : sheet.erase = sheet) :
    (converter.transform path sheet).1.erase = (converter.transform path sheet).1 := by
  have h := converter.transform_erase path sheet
  rw [hplain] at h
  exact (congrArg Prod.fst h).symm

/-- A text that is not passed through is read, converted and printed. -/
theorem process_eq_ok_iff {path : Option Text} (hpath : converter.isExcluded path = false)
    {css out : Text} {report : Report} :
    converter.process path css = .ok (out, report) ↔
      ∃ plain, Stylesheet.read css = .ok plain ∧
        (converter.transform path plain).1.print = out ∧
          (converter.transform path plain).2 = report := by
  have hlocate : ∀ {plain : Stylesheet}, Stylesheet.read css = .ok plain →
      (converter.transform path plain.locate).1.print = (converter.transform path plain).1.print ∧
        (converter.transform path plain.locate).2 = (converter.transform path plain).2 := by
    intro plain hread
    rw [transform_locate path (Stylesheet.read_eq_ok_iff.mp hread).2.1, Stylesheet.print_erase]
    exact ⟨rfl, rfl⟩
  unfold process
  rw [hpath, if_neg (by simp)]
  rw [Stylesheet.parse_eq_read]
  cases hread : Stylesheet.read css with
  | error fault => simp
  | ok plain =>
    obtain ⟨hprint, hreport⟩ := hlocate hread
    simp [hprint, hreport]

/-! ### Shapes -/

section Shapes

variable (hmarker : converter.marker = [])

include hmarker

theorem isTight_append_convertValue (front : Text) {value : Text}
    (h : IsTight (front ++ value)) : IsTight (front ++ converter.convertValue value) := by
  by_cases hvalue : value = []
  · rw [hvalue, convertValue_eq_convertFrom, convertFrom_nil]
    rwa [hvalue] at h
  · have hne : converter.convertValue value ≠ [] := by
      rwa [Ne, convertValue_eq_convertFrom, convertFrom_eq_nil_iff hmarker]
    rw [Text.isTight_append_iff hvalue] at h
    rw [Text.isTight_append_iff hne]
    exact isTight_convertFrom hmarker h

theorem alike_text_converted (decl : Declaration) :
    Lexis.Alike decl.text (converter.converted decl).text :=
  (Lexis.Alike.refl (decl.prop ++ decl.between)).append (alike_convertFrom hmarker .start _)

/-- **A converted declaration is read** where the declaration is. -/
theorem reads_converted {decl : Declaration} {trailing : Text} {stop : Option Char}
    (h : decl.Reads trailing stop) : (converter.converted decl).Reads trailing stop := by
  obtain ⟨left, right, hbetween, hleft, hright⟩ := h.between
  have hcolon : ':' ∈ decl.prop ++ decl.between := by simp [hbetween]
  exact {
    before := h.before
    opens := by
      have hopens := h.opens
      rw [Declaration.text, Piece.opensStatement_append hcolon] at hopens
      exact (Piece.opensStatement_append hcolon _).trans hopens
    prop := h.prop
    tight := h.tight
    between := h.between
    value := startsOff_convertFrom hmarker h.value
    statement := h.statement.congr (alike_text_converted hmarker decl)
      (isTight_append_convertValue hmarker _ h.statement.tight) }

/-- **The head of an at-rule keeps its shape** where it was read. -/
theorem stands_convertHead {head : AtRule} {trailing : Text} {stop : Option Char}
    (h : head.Reads trailing stop) : (converter.convertHead head).1.Stands trailing stop := by
  rcases converter.convertHead_cases head with hhead | ⟨-, -, hhead⟩
  · rw [hhead]
    exact h.toStands
  · rw [hhead]
    exact {
      before := h.before
      named := h.named
      name := h.name
      afterName := h.afterName
      params := by
        apply (startsOff_convertFrom hmarker h.params.of_append).append
        intro hempty
        have hparams := (convertFrom_eq_nil_iff hmarker).mp hempty
        simpa [hparams] using h.params
      statement := h.statement.congr (alike_convertFrom hmarker .start _)
        (isTight_append_convertValue hmarker [] h.statement.tight) }

theorem allJoin_pair {Q : AtRule → Text → Option Char → Prop} {after : Text}
    {stop : Option Char} {semicolon closed : Bool} {decl : Declaration} (hafter : after.IsFiller)
    (h : (Node.declaration decl).Reads after stop semicolon) :
    Node.AllJoin Q after stop semicolon closed
      [.declaration decl, .declaration (converter.converted decl)] := by
  obtain ⟨hdafter, hd⟩ := h
  have hconverted := reads_converted hmarker hd
  unfold Node.AllJoin
  simp only [Node.rejoinAll, Node.rejoin, Node.joinLast_pair]
  cases semicolon with
  | true =>
    rw [if_neg (by simp)]
    exact ⟨⟨⟨nofun, hd⟩, ⟨nofun, hconverted⟩, hafter, rfl⟩, rfl⟩
  | false =>
    have hdafter := hdafter rfl
    have hcafter : (converter.converted decl).after = [] := hdafter
    have hd : decl.Reads after stop := hd
    have hconverted : (converter.converted decl).Reads after stop := hconverted
    cases hon : decl.runsOn with
    | true =>
      rw [if_pos ⟨rfl, rfl⟩]
      exact ⟨Declaration.allFit_rejoined hd hdafter hon hcafter hafter hconverted
          (alike_text_converted hmarker decl),
        Declaration.printAll_rejoined hd hdafter hon hcafter hconverted⟩
    | false =>
      have hclosed := Declaration.reads_semicolon hd hdafter hon
      rw [if_neg (by simp)]
      refine ⟨⟨⟨nofun, ?_⟩, ⟨fun _ => hdafter, hconverted⟩, hafter, rfl⟩, rfl⟩
      exact hdafter.symm ▸ hclosed

omit hmarker in
/-- What stands in the place of a node: one node, or a declaration and its converted one. -/
theorem convertNode_cases (converter : Converter) (around : Surroundings) (block : List Node)
    (node : Node) :
    (∃ made, (converter.convertNode around block node).1 = [made]) ∨
      ∃ decl, node = .declaration decl ∧ converter.options.replace = false ∧
        ¬ converter.Leaves around block decl ∧
          (converter.convertNode around block node).1 =
            [.declaration decl, .declaration (converter.converted decl)] := by
  cases node with
  | declaration decl =>
    rcases converter.convertNode_declaration_cases around block decl with
      hstays | hreplaced | hinserted
    · exact Or.inl ⟨_, hstays⟩
    · exact Or.inl ⟨_, hreplaced⟩
    · exact Or.inr ⟨decl, rfl, hinserted⟩
  | _ => exact Or.inl ⟨_, rfl⟩

mutual

theorem fits_convertNode {Q : AtRule → Text → Option Char → Prop} {after : Text}
    {stop : Option Char}
    (hQ : ∀ {head : AtRule} {trailing : Text} {stop : Option Char},
      head.Reads trailing stop → Q (converter.convertHead head).1 trailing stop) :
    ∀ {node : Node} {closed : Bool}, node.Reads after stop closed →
      ∀ (around : Surroundings) (block : List Node),
        ∀ made ∈ (converter.convertNode around block node).1,
          made.takesSemicolon = node.takesSemicolon ∧ made.rejoin.Fits Q after stop closed ∧
            made.rejoin.body = made.body
  | .rule head children, _, ⟨hhead, hchildren⟩, around, _, made, hmade => by
    obtain ⟨hfit, hprint⟩ := allJoin_convertAll hQ hchildren (around.insideRule head) []
    rw [convertNode_rule] at hmade
    rw [List.mem_singleton.mp hmade]
    refine ⟨rfl, ⟨hhead, hfit⟩, ?_⟩
    simp only [Node.rejoin, Node.body, hprint]
  | .atBlock head children, _, ⟨hhead, hchildren⟩, around, _, made, hmade => by
    obtain ⟨hfit, hprint⟩ := allJoin_convertAll hQ hchildren (around.insideAtRule head) []
    have hraws := converter.raws_convertHead head
    have hhead := hQ hhead
    rw [← hraws] at hfit hprint hhead
    rw [convertNode_atBlock] at hmade
    rw [List.mem_singleton.mp hmade]
    refine ⟨rfl, ⟨hhead, hfit⟩, ?_⟩
    simp only [Node.rejoin, Node.body, hprint]
  | .atLine head, _, ⟨hline, hbetween, hhead⟩, _, _, made, hmade => by
    have hraws := converter.raws_convertHead head
    have hhead := hQ hhead
    rw [← hraws] at hline hbetween hhead
    rw [convertNode_atLine] at hmade
    rw [List.mem_singleton.mp hmade]
    exact ⟨rfl, ⟨hline, hbetween, hhead⟩, rfl⟩
  | .declaration decl, closed, ⟨hafter, hdecl⟩, around, block, made, hmade => by
    have hstays : (Node.declaration decl).Fits Q after stop closed := ⟨hafter, hdecl⟩
    have hconverted : (Node.declaration (converter.converted decl)).Fits Q after stop closed :=
      ⟨hafter, reads_converted hmarker hdecl⟩
    have hcases : made = .declaration decl ∨ made = .declaration (converter.converted decl) := by
      rcases converter.convertNode_declaration_cases around block decl with h | h | ⟨-, -, h⟩ <;>
        simp_all
    rcases hcases with rfl | rfl
    · exact ⟨rfl, hstays, rfl⟩
    · exact ⟨rfl, hconverted, rfl⟩
  | .comment note, _, hnote, _, _, made, hmade => by
    rw [List.mem_singleton.mp hmade]
    exact ⟨rfl, hnote, rfl⟩

/-- **The nodes of a block have their shape after converting**, once a declaration that runs
    on is joined with what was put behind it, and joining keeps their text. -/
theorem allJoin_convertAll {Q : AtRule → Text → Option Char → Prop} {after : Text}
    {stop : Option Char} {semicolon : Bool}
    (hQ : ∀ {head : AtRule} {trailing : Text} {stop : Option Char},
      head.Reads trailing stop → Q (converter.convertHead head).1 trailing stop) :
    ∀ {nodes : List Node} {closed : Bool}, Node.AllRead after stop semicolon closed nodes →
      ∀ (around : Surroundings) (done : List Node),
        Node.AllJoin Q after stop semicolon closed (converter.convertAll around done nodes).1
  | [], _, h, _, _ => ⟨h, rfl⟩
  | [node], closed, ⟨hnode, hafter, hclosed⟩, around, done => by
    have hfits := fits_convertNode hQ hnode around (done ++ [node])
    have hall : (converter.convertAll around done [node]).1 =
        (converter.convertNode around (done ++ [node]) node).1 := List.append_nil _
    rw [hall]
    -- Only here can a declaration run on: in front of another node a semicolon closes it.
    rcases converter.convertNode_cases around (done ++ [node]) node with
      ⟨made, hmade⟩ | ⟨decl, rfl, -, -, hmade⟩
    · obtain ⟨htakes, hfit, hbody⟩ := hfits made (by simp [hmade])
      have hsame : made.rejoin.isClosed semicolon [] = node.isClosed semicolon [] := by
        simp [Node.isClosed, htakes]
      have hsame' : made.isClosed semicolon [] = node.isClosed semicolon [] := by
        simp [Node.isClosed, htakes]
      rw [hmade]
      unfold Node.AllJoin
      rw [Node.rejoinAll, Node.rejoinAll, Node.joinLast_singleton]
      refine ⟨⟨hsame.symm ▸ hfit, hafter, hsame.trans hclosed⟩, ?_⟩
      simp only [Node.printAll, Node.before_rejoin, hbody, Node.closer, hsame, hsame']
    · rw [hmade]
      rw [hclosed] at hnode
      exact allJoin_pair hmarker hafter hnode
  | node :: next :: rest, closed, ⟨hnode, hrest⟩, around, done => by
    have hfits := fits_convertNode hQ hnode around (done ++ node :: next :: rest)
    have hothers := allJoin_convertAll hQ hrest around
      (done ++ (converter.convertNode around (done ++ node :: next :: rest) node).1)
    rw [convertAll_cons]
    dsimp only
    generalize (converter.convertNode around (done ++ node :: next :: rest) node).1 = first at *
    have hne := converter.convertAll_ne_nil around (done ++ first) next rest
    generalize (converter.convertAll around (done ++ first) (next :: rest)).1 = others at *
    have hclosed := Node.isClosed_of_ne_nil semicolon (List.cons_ne_nil next rest) node
    have hfront : ∀ made ∈ Node.rejoinAll first, made.Fits Q after stop made.takesSemicolon := by
      intro joined hjoined
      rw [Node.rejoinAll_eq_map] at hjoined
      obtain ⟨made, hmade, rfl⟩ := List.mem_map.mp hjoined
      obtain ⟨htakes, hfit, -⟩ := hfits made hmade
      rw [Node.takesSemicolon_rejoin, htakes, ← hclosed]
      exact hfit
    have hne' : Node.joinLast semicolon (Node.rejoinAll others) ≠ [] := by
      rw [Ne, Node.joinLast_eq_nil_iff, ← List.isEmpty_iff, Node.isEmpty_rejoinAll,
        List.isEmpty_iff]
      exact hne
    unfold Node.AllJoin
    rw [Node.rejoinAll_append, Node.joinLast_append_of_stops semicolon
      fun made hmade => Node.stops_of_fits (hfront made hmade)]
    exact ⟨Node.allFit_append hne' hfront (hothers.1.congr_closed hne' closed),
      Node.printAll_rejoinAll_append hne hne' (fun made hmade => (hfits made hmade).2.2)
        hothers.2⟩

end

/-- What stands in the place of a node that a semicolon closes takes in nothing. -/
theorem stops_convertNode {node : Node} {after : Text} {stop : Option Char}
    (h : node.Reads after stop node.takesSemicolon) (around : Surroundings) (block : List Node) :
    ∀ made ∈ (converter.convertNode around block node).1, made.Stops := by
  intro made hmade
  obtain ⟨htakes, hfit, -⟩ :=
    fits_convertNode hmarker (stands_convertHead hmarker) h around block made hmade
  rw [← htakes, ← Node.takesSemicolon_rejoin] at hfit
  exact Node.stops_rejoin.mp (Node.stops_of_fits hfit)

/-! ### Stylesheets -/

omit hmarker in
theorem isExcluded_none (converter : Converter) : converter.isExcluded none = false := by
  unfold isExcluded isPathExcluded
  split <;> simp_all

omit hmarker in
theorem transform_eq {path : Option Text} (hpath : converter.isExcluded path = false)
    (sheet : Stylesheet) :
    converter.transform path sheet =
      ({ sheet with nodes := (converter.convertAll {} [] sheet.nodes).1 },
        { tally := (converter.convertAll {} [] sheet.nodes).2 }) := by
  unfold transform
  rw [hpath, if_neg (by simp)]

/-- **A converted stylesheet has its shape** and keeps its text once it is rejoined. -/
theorem allFit_rejoin_transform {Q : AtRule → Text → Option Char → Prop}
    (hQ : ∀ {head : AtRule} {trailing : Text} {stop : Option Char},
      head.Reads trailing stop → Q (converter.convertHead head).1 trailing stop)
    {path : Option Text} (hpath : converter.isExcluded path = false) {sheet : Stylesheet}
    (h : sheet.Reads) :
    let made := (converter.transform path sheet).1
    Node.AllFit Q made.after none made.semicolon false made.rejoin.nodes ∧
      made.rejoin.print = made.print := by
  obtain ⟨hfit, hprint⟩ := allJoin_convertAll hmarker hQ h {} []
  rw [transform_eq hpath]
  refine ⟨hfit, ?_⟩
  simp only [Stylesheet.print, Stylesheet.rejoin, hprint]

end Shapes

end Converter

end EmScale
