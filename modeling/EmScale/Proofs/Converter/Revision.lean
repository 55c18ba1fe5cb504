/-
  EmScale/Proofs/Converter/Revision.lean
  ======================================
  **What converting may change, and what it counts.**

  A run puts declarations behind others, if values are not replaced, and without these the
  result is the tree that was converted but for converted texts: values of declarations, if
  they are replaced, and preludes of media queries, if they are to be converted
  (`Converter.IsRevision`).  The tally of the run counts these changes one by one.

  Both follow from one induction over the tree (`Converter.exists_accounts_convertAll`), which
  puts the selections of what was inserted together as the run puts its results together.
-/
import EmScale.Proofs.Converter.Transform
import EmScale.Proofs.Sheet.Selection

namespace EmScale

/-! ### What stands in a tree -/

namespace Node

def atRule? : Node → Option AtRule
  | atBlock head _ | atLine head => some head
  | rule .. | declaration _ | comment _ => none

theorem preorderAll_singleton (node : Node) :
    preorderAll [node] = node :: preorderAll node.children := by
  cases node <;> simp [preorderAll, preorder, children]

section Collect

variable {α : Type} (view : Node → Option α)

/-- What `view` shows of the nodes and of those inside of them, in order. -/
def collect (nodes : List Node) : List α :=
  (preorderAll nodes).filterMap view

theorem collect_append (a b : List Node) :
    collect view (a ++ b) = collect view a ++ collect view b := by
  simp [collect, preorderAll_append]

theorem collect_cons (node : Node) (rest : List Node) :
    collect view (node :: rest) = collect view [node] ++ collect view rest :=
  collect_append view [node] rest

theorem collect_singleton (node : Node) :
    collect view [node] = (view node).toList ++ collect view node.children := by
  rw [collect, preorderAll_singleton]
  cases h : view node <;> simp [collect, h]

end Collect

end Node

mutual

/-- The declarations of a node and inside of it, each with what the decision on it depends
    on. -/
def Node.contexts (around : Surroundings) : Node → List DeclarationContext
  | .rule head children => Node.contextsAll (around.insideRule head) children
  | .atBlock head children => Node.contextsAll (around.insideAtRule head) children
  | .declaration decl => [around.contextOf decl]
  | .atLine _ | .comment _ => []

def Node.contextsAll (around : Surroundings) : List Node → List DeclarationContext
  | [] => []
  | node :: rest => node.contexts around ++ Node.contextsAll around rest

end

/-- The decisions that a tally counts: those that did not keep a declaration. -/
def Tally.decided (tally : Tally) : Nat :=
  tally.replaced + tally.fallbacks + tally.skippedDuplicates

theorem Tally.decided_add (a b : Tally) : (a + b).decided = a.decided + b.decided := by
  simp only [decided, replaced_add, fallbacks_add, skippedDuplicates_add]
  omega

/-- How many of the items at the same places of two lists differ in what `view` shows. -/
def countDiffering {α : Type} (view : α → Text) (old new : List α) : Nat :=
  (old.zip new).countP fun pair => view pair.1 ≠ view pair.2

theorem countDiffering_append {α : Type} (view : α → Text) {a a' : List α} (b b' : List α)
    (h : a.length = a'.length) :
    countDiffering view (a ++ b) (a' ++ b') =
      countDiffering view a a' + countDiffering view b b' := by
  rw [countDiffering, List.zip_append h, List.countP_append, countDiffering, countDiffering]

namespace Converter

variable {converter : Converter}

/-! ### What may become of a node -/

/-- The head of an at-rule stays, or it is that of a media query and its prelude is
    converted. -/
def RevisesHead (converter : Converter) (head head' : AtRule) : Prop :=
  head' = head ∨ converter.options.mediaQuery = true ∧ head.isMedia = true ∧
    head' = { head with params := converter.convertValue head.params }

/-- A declaration stays, or values are replaced and its value is converted. -/
def RevisesDeclaration (converter : Converter) (decl decl' : Declaration) : Prop :=
  decl' = decl ∨ converter.options.replace = true ∧ decl' = converter.converted decl

mutual

/-- Two nodes that differ in converted texts only. -/
inductive Revises (converter : Converter) : Node → Node → Prop where
  | rule (head : Rule) {old new : List Node} (h : AllRevise converter old new) :
    Revises converter (.rule head old) (.rule head new)
  | atBlock {head head' : AtRule} {old new : List Node} (hhead : converter.RevisesHead head head')
    (h : AllRevise converter old new) : Revises converter (.atBlock head old) (.atBlock head' new)
  | atLine {head head' : AtRule} (hhead : converter.RevisesHead head head') :
    Revises converter (.atLine head) (.atLine head')
  | declaration {decl decl' : Declaration} (h : converter.RevisesDeclaration decl decl') :
    Revises converter (.declaration decl) (.declaration decl')
  | comment (note : Comment) : Revises converter (.comment note) (.comment note)

/-- Two blocks whose nodes differ in converted texts only. -/
inductive AllRevise (converter : Converter) : List Node → List Node → Prop where
  | nil : AllRevise converter [] []
  | cons {node node' : Node} {rest rest' : List Node} (h : Revises converter node node')
    (hrest : AllRevise converter rest rest') : AllRevise converter (node :: rest) (node' :: rest')

end

theorem AllRevise.single {node node' : Node} (h : converter.Revises node node') :
    converter.AllRevise [node] [node'] :=
  .cons h .nil

theorem AllRevise.append {a a' b b' : List Node} (ha : converter.AllRevise a a')
    (hb : converter.AllRevise b b') : converter.AllRevise (a ++ b) (a' ++ b') := by
  induction a generalizing a' with
  | nil =>
    cases ha
    exact hb
  | cons node a ih =>
    cases ha with
    | cons hnode hrest => exact .cons hnode (ih hrest)

/-- A view that shows something of a node if it does of what may become of it. -/
def IsSteady {α : Type} (converter : Converter) (view : Node → Option α) : Prop :=
  ∀ {node node' : Node}, converter.Revises node node' → (view node).isSome = (view node').isSome

theorem isSteady_declaration? : converter.IsSteady Node.declaration? := by
  intro node node' h
  cases h <;> rfl

theorem isSteady_atRule? : converter.IsSteady Node.atRule? := by
  intro node node' h
  cases h <;> rfl

section Collect

variable {α : Type} {view : Node → Option α} (hview : converter.IsSteady view)

include hview

theorem Revises.length_collect_of_children {node node' : Node} (h : converter.Revises node node')
    (hchildren : (Node.collect view node.children).length =
      (Node.collect view node'.children).length) :
    (Node.collect view [node]).length = (Node.collect view [node']).length := by
  rw [Node.collect_singleton, Node.collect_singleton, List.length_append, List.length_append,
    Option.length_toList, Option.length_toList, hview h, hchildren]

end Collect

mutual

theorem Revises.length_collect {α : Type} {view : Node → Option α}
    (hview : converter.IsSteady view) : ∀ {node node' : Node}, converter.Revises node node' →
      (Node.collect view [node]).length = (Node.collect view [node']).length
  | _, _, .rule head h =>
    (Revises.rule head h).length_collect_of_children hview (h.length_collect hview)
  | _, _, .atBlock hhead h =>
    (Revises.atBlock hhead h).length_collect_of_children hview (h.length_collect hview)
  | _, _, .atLine hhead => (Revises.atLine hhead).length_collect_of_children hview rfl
  | _, _, .declaration h => (Revises.declaration h).length_collect_of_children hview rfl
  | _, _, .comment _ => rfl

/-- **Blocks that differ in converted texts only have as much to show.** -/
theorem AllRevise.length_collect {α : Type} {view : Node → Option α}
    (hview : converter.IsSteady view) : ∀ {old new : List Node}, converter.AllRevise old new →
      (Node.collect view old).length = (Node.collect view new).length
  | _, _, .nil => rfl
  | node :: rest, node' :: rest', .cons h hrest => by
    rw [Node.collect_cons _ node, Node.collect_cons _ node', List.length_append,
      List.length_append, h.length_collect hview, hrest.length_collect hview]

end

/-! ### What was put behind a declaration -/

/-- The node `index` of the block at `place` stands right behind a declaration that is not
    itself inserted, and is that declaration with its value converted. -/
def IsInserted (converter : Converter) (nodes : List Node) (inserted : Selection) (place : Place)
    (index : Nat) : Prop :=
  ∃ block previous decl, Node.blockAt? nodes place = some block ∧ index = previous + 1 ∧
    inserted place previous = false ∧ block[previous]? = some (.declaration decl) ∧
      block[index]? = some (.declaration (converter.converted decl))

/-- The nodes `new` are what may become of `old`: each inserted node was put behind a
    declaration, which happens only if values are not replaced, and without the inserted nodes
    `new` differs from `old` in converted texts only. -/
structure IsRevision (converter : Converter) (old new : List Node) (inserted : Selection) :
    Prop where
  appended : ∀ place index, inserted place index = true →
    converter.options.replace = false ∧ converter.IsInserted new inserted place index
  kept : converter.AllRevise old (Node.withoutAll inserted 0 new)

section Inserted

variable {a b : List Node} {first second : Selection} {place : Place} {index : Nat}

theorem IsInserted.beside_left (h : converter.IsInserted a first place index)
    (hplace : ∀ step ∈ place.head?, step < a.length) :
    converter.IsInserted (a ++ b) (.beside a.length first second) place index := by
  obtain ⟨block, previous, decl, hblock, rfl, hsource, hdecl, hinserted⟩ := h
  cases place with
  | nil =>
    cases hblock
    obtain ⟨hprevious, -⟩ := List.getElem?_eq_some_iff.mp hdecl
    obtain ⟨hindex, -⟩ := List.getElem?_eq_some_iff.mp hinserted
    refine ⟨a ++ b, previous, decl, rfl, rfl, ?_, ?_, ?_⟩
    · rwa [Selection.beside, if_pos hprevious]
    · rwa [List.getElem?_append_left hprevious]
    · rwa [List.getElem?_append_left hindex]
  | cons step place =>
    have hstep : step < a.length := hplace step rfl
    refine ⟨block, previous, decl, ?_, rfl, ?_, hdecl, hinserted⟩
    · rwa [Node.blockAt?_append_left place hstep]
    · rwa [Selection.beside, if_pos hstep]

theorem IsInserted.beside_right_here (h : converter.IsInserted b second [] index) :
    converter.IsInserted (a ++ b) (.beside a.length first second) [] (a.length + index) := by
  obtain ⟨block, previous, decl, hblock, rfl, hsource, hdecl, hinserted⟩ := h
  cases hblock
  refine ⟨a ++ b, a.length + previous, decl, rfl, rfl, ?_, ?_, ?_⟩
  · simpa [Selection.beside] using hsource
  · rwa [List.getElem?_append_right (Nat.le_add_right _ _), Nat.add_sub_cancel_left]
  · rwa [List.getElem?_append_right (Nat.le_add_right _ _), Nat.add_sub_cancel_left]

theorem IsInserted.beside_right_inside {step : Nat}
    (h : converter.IsInserted b second (step :: place) index) :
    converter.IsInserted (a ++ b) (.beside a.length first second) ((a.length + step) :: place)
      index := by
  obtain ⟨block, previous, decl, hblock, rfl, hsource, hdecl, hinserted⟩ := h
  refine ⟨block, previous, decl, ?_, rfl, ?_, hdecl, hinserted⟩
  · rwa [Node.blockAt?_append_right place (Nat.le_add_right _ _), Nat.add_sub_cancel_left]
  · simpa [Selection.beside] using hsource

theorem IsInserted.within {node : Node} (h : converter.IsInserted node.children first place index) :
    converter.IsInserted [node] (.within first) (0 :: place) index := by
  obtain ⟨block, previous, decl, hblock, rfl, hsource, hdecl, hinserted⟩ := h
  exact ⟨block, previous, decl, hblock, rfl, hsource, hdecl, hinserted⟩

end Inserted

/-! ### What is counted -/

/-- The nodes `new` are what may become of `old`, and the tally counts what changed. -/
structure Accounts (converter : Converter) (old new : List Node) (inserted : Selection)
    (tally : Tally) : Prop extends converter.IsRevision old new inserted where
  replaced : tally.replaced =
    countDiffering Declaration.value (Node.collect Node.declaration? old)
      (Node.collect Node.declaration? (Node.withoutAll inserted 0 new))
  mediaConverted : tally.mediaConverted =
    countDiffering AtRule.params (Node.collect Node.atRule? old)
      (Node.collect Node.atRule? (Node.withoutAll inserted 0 new))
  fallbacks : (Node.preorderAll new).length = (Node.preorderAll old).length + tally.fallbacks

section Accounts

variable {a a' b b' : List Node} {first second : Selection} {t u : Tally}

theorem IsRevision.append (ha : converter.IsRevision a a' first)
    (hb : converter.IsRevision b b' second) :
    converter.IsRevision (a ++ b) (a' ++ b') (.beside a'.length first second) := by
  constructor
  · intro place index hinserted
    match place with
    | [] =>
      by_cases hindex : index < a'.length
      · rw [Selection.beside, if_pos hindex] at hinserted
        obtain ⟨hreplace, h⟩ := ha.appended [] index hinserted
        exact ⟨hreplace, h.beside_left (by simp)⟩
      · rw [Selection.beside, if_neg hindex] at hinserted
        obtain ⟨hreplace, h⟩ := hb.appended [] (index - a'.length) hinserted
        have hbeside : converter.IsInserted (a' ++ b') (.beside a'.length first second) []
            (a'.length + (index - a'.length)) := h.beside_right_here
        rw [Nat.add_sub_cancel' (Nat.le_of_not_lt hindex)] at hbeside
        exact ⟨hreplace, hbeside⟩
    | step :: place =>
      by_cases hstep : step < a'.length
      · rw [Selection.beside, if_pos hstep] at hinserted
        obtain ⟨hreplace, h⟩ := ha.appended (step :: place) index hinserted
        exact ⟨hreplace, h.beside_left (by simpa using hstep)⟩
      · rw [Selection.beside, if_neg hstep] at hinserted
        obtain ⟨hreplace, h⟩ := hb.appended ((step - a'.length) :: place) index hinserted
        have hbeside : converter.IsInserted (a' ++ b') (.beside a'.length first second)
            ((a'.length + (step - a'.length)) :: place) index := h.beside_right_inside
        rw [Nat.add_sub_cancel' (Nat.le_of_not_lt hstep)] at hbeside
        exact ⟨hreplace, hbeside⟩
  · rw [Node.withoutAll_beside]
    exact ha.kept.append hb.kept

theorem Accounts.append (ha : converter.Accounts a a' first t)
    (hb : converter.Accounts b b' second u) :
    converter.Accounts (a ++ b) (a' ++ b') (.beside a'.length first second) (t + u) where
  toIsRevision := ha.toIsRevision.append hb.toIsRevision
  replaced := by
    have hlength := ha.kept.length_collect isSteady_declaration?
    rw [Node.withoutAll_beside, Node.collect_append, Node.collect_append,
      countDiffering_append _ _ _ hlength, ← ha.replaced, ← hb.replaced, Tally.replaced_add]
  mediaConverted := by
    have hlength := ha.kept.length_collect isSteady_atRule?
    rw [Node.withoutAll_beside, Node.collect_append, Node.collect_append,
      countDiffering_append _ _ _ hlength, ← ha.mediaConverted, ← hb.mediaConverted,
      Tally.mediaConverted_add]
  fallbacks := by
    have ha := ha.fallbacks
    have hb := hb.fallbacks
    simp only [Node.preorderAll_append, List.length_append, Tally.fallbacks_add]
    omega

theorem Accounts.nil : converter.Accounts [] [] .none {} where
  appended := nofun
  kept := .nil
  replaced := rfl
  mediaConverted := rfl
  fallbacks := rfl

/-- **A node is accounted for** if its children are, and what was made of the node itself
    is. -/
theorem Accounts.within {node made kept : Node}
    (h : converter.Accounts node.children made.children first t)
    (hkept : Node.withoutAll (.within first) 0 [made] = [kept])
    (hchildren : kept.children = Node.withoutAll first 0 made.children)
    (hrevises : converter.Revises node kept)
    (hreplaced : u.replaced =
      countDiffering Declaration.value node.declaration?.toList kept.declaration?.toList)
    (hmedia : u.mediaConverted =
      countDiffering AtRule.params node.atRule?.toList kept.atRule?.toList)
    (hfallbacks : u.fallbacks = 0) :
    converter.Accounts [node] [made] (.within first) (u + t) where
  appended := by
    intro place index hinserted
    match place with
    | 0 :: place =>
      obtain ⟨hreplace, hinside⟩ := h.appended place index hinserted
      exact ⟨hreplace, hinside.within⟩
  kept := by
    rw [hkept]
    exact .single hrevises
  replaced := by
    have hlength : node.declaration?.toList.length = kept.declaration?.toList.length := by
      rw [Option.length_toList, Option.length_toList, isSteady_declaration? hrevises]
    rw [hkept, Node.collect_singleton, Node.collect_singleton, hchildren,
      countDiffering_append _ _ _ hlength, ← hreplaced, ← h.replaced, Tally.replaced_add]
  mediaConverted := by
    have hlength : node.atRule?.toList.length = kept.atRule?.toList.length := by
      rw [Option.length_toList, Option.length_toList, isSteady_atRule? hrevises]
    rw [hkept, Node.collect_singleton, Node.collect_singleton, hchildren,
      countDiffering_append _ _ _ hlength, ← hmedia, ← h.mediaConverted,
      Tally.mediaConverted_add]
  fallbacks := by
    have hinside := h.fallbacks
    simp only [Node.preorderAll_singleton, List.length_cons, Tally.fallbacks_add]
    omega

end Accounts

/-! ### What a run changes -/

theorem countDiffering_self {α : Type} (view : α → Text) (items : List α) :
    countDiffering view items items = 0 := by
  simp [countDiffering, List.zip_eq_zipWith]

theorem revisesHead_convertHead (converter : Converter) (head : AtRule) :
    converter.RevisesHead head (converter.convertHead head).1 := by
  rcases converter.convertHead_eq head with h | ⟨⟨hquery, hmedia⟩, -, h⟩
  · rw [h]
    exact Or.inl rfl
  · rw [h]
    exact Or.inr ⟨hquery, hmedia, rfl⟩

theorem tally_convertHead (converter : Converter) (head : AtRule) :
    (converter.convertHead head).2 = {
      mediaConverted := countDiffering AtRule.params [head] [(converter.convertHead head).1] } := by
  rcases converter.convertHead_eq head with h | ⟨-, hparams, h⟩
  · rw [h]
    simp [countDiffering]
  · rw [h]
    simp [countDiffering, hparams.symm]

/-- A node without children is accounted for by what is made of it. -/
theorem Accounts.leaf {node made : Node} {tally : Tally} (hchildren : node.children = [])
    (hmade : made.children = []) (hrevises : converter.Revises node made)
    (hreplaced : tally.replaced =
      countDiffering Declaration.value node.declaration?.toList made.declaration?.toList)
    (hmedia : tally.mediaConverted =
      countDiffering AtRule.params node.atRule?.toList made.atRule?.toList)
    (hfallbacks : tally.fallbacks = 0) :
    converter.Accounts [node] [made] (.within .none) tally := by
  have hinside : converter.Accounts node.children made.children .none {} := by
    rw [hchildren, hmade]
    exact .nil
  have hkept : Node.withoutAll (.within .none) 0 [made] = [made] := by
    cases made <;> simp_all [Node.withoutAll, Node.without, Selection.within, Node.children]
  have h := hinside.within hkept (by rw [hmade]; rfl) hrevises hreplaced hmedia hfallbacks
  rwa [Tally.add_empty] at h

/-- A declaration that was put behind another one is accounted for. -/
theorem accounts_inserted (hreplace : converter.options.replace = false) (decl : Declaration) :
    converter.Accounts [.declaration decl]
      [.declaration decl, .declaration (converter.converted decl)] .behindFirst
      { fallbacks := 1 } where
  appended := by
    intro place index hinserted
    match place, index with
    | [], 1 => exact ⟨hreplace, _, 0, decl, rfl, rfl, rfl, rfl, rfl⟩
  kept := .single (.declaration (Or.inl rfl))
  replaced := by
    have hkept : Node.withoutAll .behindFirst 0
        [.declaration decl, .declaration (converter.converted decl)] = [.declaration decl] := rfl
    rw [hkept, countDiffering_self]
  mediaConverted := rfl
  fallbacks := rfl

theorem exists_accounts_declaration (around : Surroundings) (block : List Node)
    (decl : Declaration) :
    ∃ inserted, converter.Accounts [.declaration decl]
      (converter.convertNode around block (.declaration decl)).1 inserted
      (converter.convertNode around block (.declaration decl)).2 := by
  by_cases h : converter.Leaves around block decl
  · obtain ⟨hmade, hreplaced, hfallbacks, hmedia⟩ := convertNode_of_leaves h
    rw [hmade]
    refine ⟨.within .none, .leaf rfl rfl (.declaration (Or.inl rfl)) ?_ ?_ hfallbacks⟩
    · simpa [countDiffering, Node.declaration?] using hreplaced
    · simpa [countDiffering, Node.atRule?] using hmedia
  · have hvalue : converter.convertValue decl.value ≠ decl.value :=
      (decide_eq_of_ne_keep (not_or.mp h).1).1
    rw [convertNode_eq_of_not_leaves h]
    cases hreplace : converter.options.replace with
    | true =>
      refine ⟨.within .none, .leaf rfl rfl (.declaration (Or.inr ⟨hreplace, rfl⟩)) ?_ rfl rfl⟩
      simp [countDiffering, Node.declaration?, converted, Declaration.withValue, hvalue.symm]
    | false =>
      exact ⟨.behindFirst, accounts_inserted hreplace decl⟩

mutual

theorem exists_accounts_convertNode : ∀ (node : Node) (around : Surroundings) (block : List Node),
    ∃ inserted, converter.Accounts [node] (converter.convertNode around block node).1 inserted
      (converter.convertNode around block node).2
  | .rule head children, around, _ => by
    obtain ⟨inserted, h⟩ := exists_accounts_convertAll children (around.insideRule head) []
    rw [convertNode_rule]
    dsimp only
    rw [← Tally.empty_add (converter.convertAll (around.insideRule head) [] children).2]
    exact ⟨.within inserted, h.within rfl rfl (.rule head h.kept) rfl rfl rfl⟩
  | .atBlock head children, around, _ => by
    obtain ⟨inserted, h⟩ := exists_accounts_convertAll children (around.insideAtRule head) []
    have hrevises := Revises.atBlock (converter.revisesHead_convertHead head) h.kept
    rw [convertNode_atBlock]
    dsimp only
    rw [tally_convertHead]
    exact ⟨.within inserted, h.within rfl rfl hrevises rfl rfl rfl⟩
  | .atLine head, _, _ => by
    have hrevises := Revises.atLine (converter.revisesHead_convertHead head)
    rw [convertNode_atLine, tally_convertHead]
    exact ⟨.within .none, .leaf rfl rfl hrevises rfl rfl rfl⟩
  | .declaration decl, around, block => exists_accounts_declaration around block decl
  | .comment note, _, _ => ⟨.within .none, .leaf rfl rfl (.comment note) rfl rfl rfl⟩

/-- **What a run changes is accounted for** by what it put behind declarations and by its
    tally. -/
theorem exists_accounts_convertAll : ∀ (nodes : List Node) (around : Surroundings)
    (done : List Node), ∃ inserted,
      converter.Accounts nodes (converter.convertAll around done nodes).1 inserted
        (converter.convertAll around done nodes).2
  | [], _, _ => ⟨.none, .nil⟩
  | node :: rest, around, done => by
    obtain ⟨first, hnode⟩ := exists_accounts_convertNode node around (done ++ node :: rest)
    obtain ⟨second, hrest⟩ := exists_accounts_convertAll rest around
      (done ++ (converter.convertNode around (done ++ node :: rest) node).1)
    rw [convertAll_cons]
    exact ⟨_, hnode.append hrest⟩

end

/-! ### What is decided -/

theorem decided_emit (decision : Decision) (block : List Node) (decl : Declaration) :
    (decision.emit block decl).1.tally.decided = if decision = .keep then 0 else 1 := by
  cases decision with
  | keep => rfl
  | replace value | append value =>
    simp only [Decision.emit]
    split <;> rfl

theorem decided_convertHead (head : AtRule) : (converter.convertHead head).2.decided = 0 := by
  rw [tally_convertHead]
  rfl

mutual

theorem decided_convertNode : ∀ (node : Node) (around : Surroundings) (block : List Node),
    (converter.convertNode around block node).2.decided =
      (node.contexts around).countP fun context => converter.decide context ≠ .keep
  | .rule head children, around, _ => decided_convertAll children (around.insideRule head) []
  | .atBlock head children, around, _ => by
    have hinner := decided_convertAll children (around.insideAtRule head) []
    rw [convertNode_atBlock, Tally.decided_add, decided_convertHead, hinner, Nat.zero_add]
    rfl
  | .atLine head, _, _ => decided_convertHead head
  | .declaration decl, around, block => by
    rw [convertNode_declaration, decided_emit, Node.contexts, List.countP_singleton]
    split <;> simp_all
  | .comment _, _, _ => rfl

/-- **Each declaration is decided on once**, and its decision is counted unless it is kept. -/
theorem decided_convertAll : ∀ (nodes : List Node) (around : Surroundings) (done : List Node),
    (converter.convertAll around done nodes).2.decided =
      (Node.contextsAll around nodes).countP fun context => converter.decide context ≠ .keep
  | [], _, _ => rfl
  | node :: rest, around, done => by
    rw [convertAll_cons, Tally.decided_add, decided_convertNode node, decided_convertAll rest,
      Node.contextsAll, List.countP_append]

end

/-! ### Stylesheets -/

/-- **What converting may change**: declarations are put behind others, and without them the
    nodes differ from those that were converted in converted texts only. -/
theorem exists_isRevision_transform {path : Option Text}
    (hpath : converter.isExcluded path = false) (sheet : Stylesheet) :
    let made := (converter.transform path sheet).1
    (∃ inserted, converter.IsRevision sheet.nodes made.nodes inserted) ∧
      made.after = sheet.after ∧ made.semicolon = sheet.semicolon := by
  intro made
  obtain ⟨inserted, h⟩ := @exists_accounts_convertAll converter sheet.nodes {} []
  have hmade : made = { sheet with nodes := (converter.convertAll {} [] sheet.nodes).1 } :=
    congrArg Prod.fst (transform_eq hpath sheet)
  rw [hmade]
  exact ⟨⟨inserted, h.toIsRevision⟩, rfl, rfl⟩

theorem exists_isRevision_transform_nested :
    let converter := ofOptions
      { replace := false, mediaQuery := true, exclude := some (.matcher (.text "vendor".toList)) }
    let sheet : Stylesheet := { nodes := [
      .atBlock { name := "MEDIA".toList, params := "(a:5px)".toList } [
        .comment { text := "5px".toList },
        .rule { selector := ['b'] } [
          .declaration { prop := ['c'], value := "7px".toList },
          .declaration { prop := ['d'], value := "url(7px)".toList }]]] }
    let made := (converter.transform (some "a.css".toList) sheet).1
    converter.isExcluded (some "a.css".toList) = false ∧
      made.print = "@MEDIA(a:0.05em)\x7b/*5px*/b\x7bc: 7px;c: 0.07em;d: url(7px)\x7d\x7d".toList ∧
      (∃ inserted, converter.IsRevision sheet.nodes made.nodes inserted) ∧
      made.after = sheet.after ∧ made.semicolon = sheet.semicolon := by
  intro converter sheet made
  have hpath : converter.isExcluded (some "a.css".toList) = false := by decide +kernel
  exact ⟨hpath, by decide +kernel, exists_isRevision_transform hpath sheet⟩

/-- **The tally accounts for every decision once**: for each declaration that is not kept,
    and for each value, inserted declaration and prelude that is new. -/
theorem transform_tally {path : Option Text} (hpath : converter.isExcluded path = false)
    (sheet : Stylesheet) :
    let made := (converter.transform path sheet).1
    let tally := (converter.transform path sheet).2.tally
    tally.replaced + tally.fallbacks + tally.skippedDuplicates =
        ((Node.contextsAll {} sheet.nodes).countP fun context =>
          converter.decide context ≠ .keep) ∧
      (∃ inserted, converter.IsRevision sheet.nodes made.nodes inserted ∧
        let kept := Node.withoutAll inserted 0 made.nodes
        tally.replaced =
            countDiffering Declaration.value (Node.collect Node.declaration? sheet.nodes)
              (Node.collect Node.declaration? kept) ∧
          tally.mediaConverted =
            countDiffering AtRule.params (Node.collect Node.atRule? sheet.nodes)
              (Node.collect Node.atRule? kept)) ∧
      made.allNodes.length = sheet.allNodes.length + tally.fallbacks ∧
      (converter.options.replace = true → tally.fallbacks = 0) ∧
      (converter.options.replace = false → tally.replaced = 0) := by
  intro made tally
  have htransform := transform_eq hpath sheet
  have hmade : made = { sheet with nodes := (converter.convertAll {} [] sheet.nodes).1 } :=
    congrArg Prod.fst htransform
  have htally : tally = (converter.convertAll {} [] sheet.nodes).2 :=
    congrArg (fun result => result.2.tally) htransform
  obtain ⟨inserted, h⟩ := @exists_accounts_convertAll converter sheet.nodes {} []
  rw [hmade, htally]
  refine ⟨decided_convertAll sheet.nodes {} [], ?_, h.fallbacks, ?_, ?_⟩
  · exact ⟨inserted, h.toIsRevision, h.replaced, h.mediaConverted⟩
  · intro hreplace
    exact fallbacks_convertAll hreplace sheet.nodes {} []
  · intro hreplace
    exact replaced_convertAll hreplace sheet.nodes {} []

/-- Of the three lengths one is replaced, one is declared already and one is blacklisted. -/
theorem transform_tally_duplicate :
    let converter := ofOptions
      { mediaQuery := true, selectorBlackList := [.text ['x']],
        exclude := some (.matcher (.text "vendor".toList)) }
    let sheet : Stylesheet := { nodes := [
      .atBlock { name := "media".toList, params := "(a:5px)".toList } [
        .rule { selector := ['x'] } [.declaration { prop := ['c'], value := "7px".toList }],
        .rule { selector := ['y'] } [
          .declaration { prop := ['c'], value := "7px".toList },
          .declaration { prop := ['c'], value := "0.07em".toList },
          .declaration { prop := ['d'], value := "7px".toList }]]] }
    let made := (converter.transform (some "a.css".toList) sheet).1
    converter.isExcluded (some "a.css".toList) = false ∧
      (converter.transform (some "a.css".toList) sheet).2.tally =
        { replaced := 1, skippedDuplicates := 1, mediaConverted := 1 } ∧
      ((Node.contextsAll {} sheet.nodes).countP fun context =>
        converter.decide context ≠ .keep) = 2 ∧
      (∃ inserted, converter.IsRevision sheet.nodes made.nodes inserted ∧
        let kept := Node.withoutAll inserted 0 made.nodes
        countDiffering Declaration.value (Node.collect Node.declaration? sheet.nodes)
            (Node.collect Node.declaration? kept) = 1 ∧
          countDiffering AtRule.params (Node.collect Node.atRule? sheet.nodes)
            (Node.collect Node.atRule? kept) = 1) ∧
      made.allNodes.length = sheet.allNodes.length := by
  intro converter sheet made
  have hpath : converter.isExcluded (some "a.css".toList) = false := by decide +kernel
  have htally : (converter.transform (some "a.css".toList) sheet).2.tally =
      { replaced := 1, skippedDuplicates := 1, mediaConverted := 1 } := by
    decide +kernel
  obtain ⟨hdecided, ⟨inserted, hrevision, hreplaced, hmedia⟩, hgrown, -, -⟩ :=
    transform_tally hpath sheet
  rw [htally] at hdecided hreplaced hmedia hgrown
  exact ⟨hpath, htally, hdecided.symm, ⟨inserted, hrevision, hreplaced.symm, hmedia.symm⟩, hgrown⟩

end Converter

end EmScale
