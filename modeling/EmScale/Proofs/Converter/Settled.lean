/-
  EmScale/Proofs/Converter/Settled.lean
  =====================================
  **Where nothing is left to do.**

  A run that counts nothing changes nothing, and whether it counts anything can be asked of
  each node of a block on its own (`Converter.isIdle_convertAll_iff`).  After a run every
  declaration is settled: what took the place of its value stays, and what was put behind it
  is found there.  The one exception is a declaration that runs on.  It is read with a longer
  value, which is converted once more unless the block happens to declare the result
  (`Converter.Recovers`).
-/
import EmScale.Proofs.Converter.Rescan
import EmScale.Proofs.Converter.Transform

namespace EmScale

open Text (StartsOff)

namespace Converter

variable {converter : Converter}

/-! ### Runs that change nothing -/

mutual

theorem convertNode_of_isIdle : ∀ {node : Node} {around : Surroundings} {block : List Node},
    (converter.convertNode around block node).2.IsIdle →
      (converter.convertNode around block node).1 = [node]
  | .rule head children, around, block, h => by
    rw [convertNode_rule] at h ⊢
    simp only [convertAll_of_isIdle h]
  | .atBlock head children, around, block, h => by
    rw [convertNode_atBlock] at h ⊢
    obtain ⟨hhead, hchildren⟩ := Tally.isIdle_add.mp h
    simp only [convertHead_of_isIdle hhead, convertAll_of_isIdle hchildren]
  | .atLine head, around, block, h => by
    rw [convertNode_atLine] at h ⊢
    simp only [convertHead_of_isIdle h]
  | .declaration decl, around, block, h =>
    (convertNode_of_leaves (isIdle_convertNode_declaration.mp h)).1
  | .comment _, _, _, _ => rfl

/-- **A run that counts nothing changes nothing.** -/
theorem convertAll_of_isIdle : ∀ {nodes : List Node} {around : Surroundings} {done : List Node},
    (converter.convertAll around done nodes).2.IsIdle →
      (converter.convertAll around done nodes).1 = nodes
  | [], _, _, _ => rfl
  | node :: rest, around, done, h => by
    rw [convertAll_cons] at h ⊢
    obtain ⟨hfirst, hothers⟩ := Tally.isIdle_add.mp h
    simp only [convertNode_of_isIdle hfirst] at hothers ⊢
    rw [convertAll_of_isIdle hothers]
    rfl

end

/-- Whether a run counts anything can be asked of each node of the block. -/
theorem isIdle_convertAll_iff {around : Surroundings} {done nodes : List Node} :
    (converter.convertAll around done nodes).2.IsIdle ↔
      ∀ node ∈ nodes, (converter.convertNode around (done ++ nodes) node).2.IsIdle := by
  induction nodes generalizing done with
  | nil => simp [convertAll, Tally.isIdle_empty]
  | cons node rest ih =>
    rw [convertAll_cons, Tally.isIdle_add, List.forall_mem_cons]
    apply and_congr_right
    intro hfirst
    rw [convertNode_of_isIdle hfirst, ih, List.append_assoc, List.singleton_append]

/-! ### Declarations and what is inside of nodes -/

/-- A run counts nothing for the head of a node and inside of its block. -/
def IsIdleInside (converter : Converter) (around : Surroundings) : Node → Prop
  | .rule head children => (converter.convertAll (around.insideRule head) [] children).2.IsIdle
  | .atBlock head children =>
    (converter.convertHead head).2.IsIdle ∧
      (converter.convertAll (around.insideAtRule head) [] children).2.IsIdle
  | .atLine head => (converter.convertHead head).2.IsIdle
  | .declaration _ | .comment _ => True

/-- Every declaration among the nodes is left as it is in the block. -/
def AllLeft (converter : Converter) (around : Surroundings) (block nodes : List Node) : Prop :=
  ∀ decl, .declaration decl ∈ nodes → converter.Leaves around block decl

theorem Leaves.congr {around around' : Surroundings} {block block' : List Node}
    {decl : Declaration} (hselector : around.selector = around'.selector)
    (hblock : ∀ prop value,
      block.any (Node.declares prop value) = block'.any (Node.declares prop value)) :
    converter.Leaves around block decl ↔ converter.Leaves around' block' decl := by
  have hdecide : converter.decide (around.contextOf decl) =
      converter.decide (around'.contextOf decl) := by
    unfold Surroundings.contextOf
    rw [hselector]
    rfl
  unfold Leaves
  rw [hdecide, hblock]

theorem isIdle_convertNode_iff {around : Surroundings} {block : List Node} {node : Node} :
    (converter.convertNode around block node).2.IsIdle ↔
      (∀ decl, .declaration decl = node → converter.Leaves around block decl) ∧
        converter.IsIdleInside around node := by
  cases node with
  | declaration decl => simp [isIdle_convertNode_declaration, IsIdleInside]
  | rule head children => simp [convertNode_rule, IsIdleInside]
  | atBlock head children => simp [convertNode_atBlock, IsIdleInside]
  | atLine head => simp [convertNode_atLine, IsIdleInside]
  | comment note => simp [convertNode_comment, IsIdleInside, Tally.isIdle_empty]

theorem isIdle_convertAll_iff_allLeft {around : Surroundings} {nodes : List Node} :
    (converter.convertAll around [] nodes).2.IsIdle ↔
      converter.AllLeft around nodes nodes ∧
        ∀ node ∈ nodes, converter.IsIdleInside around node := by
  rw [isIdle_convertAll_iff]
  simp only [isIdle_convertNode_iff, List.nil_append]
  constructor
  · intro h
    exact ⟨fun decl hdecl => (h _ hdecl).1 decl rfl, fun node hnode => (h node hnode).2⟩
  · rintro ⟨hleft, hinside⟩ node hnode
    exact ⟨fun decl hdecl => hleft decl (hdecl ▸ hnode), hinside node hnode⟩

/-! ### Blocks that run on -/

/-- If the block runs on, what is read there then has a converted value that is declared in
    front of it. -/
def Recovers (converter : Converter) (semicolon : Bool) (block : List Node) : Prop :=
  ∀ front decl next, block = front ++ [.declaration decl, .declaration next] →
    semicolon = false → decl.runsOn = true →
      front.any (Node.declares decl.prop
        (converter.convertValue (decl.extended next).value)) = true

theorem recovers_of_not_runsOn {semicolon : Bool} {block : List Node}
    (h : ¬ Node.RunsOn semicolon block) : converter.Recovers semicolon block := by
  intro front decl next heq hsemicolon hon
  exact absurd ⟨front, decl, next, heq, hsemicolon, hon⟩ h

theorem recovers_nil (semicolon : Bool) : converter.Recovers semicolon [] :=
  recovers_of_not_runsOn (Node.not_runsOn_nil semicolon)

theorem recovers_pair_iff {front : List Node} {decl next : Declaration}
    (hon : decl.runsOn = true) :
    converter.Recovers false (front ++ [.declaration decl, .declaration next]) ↔
      front.any (Node.declares decl.prop
        (converter.convertValue (decl.extended next).value)) = true := by
  constructor
  · intro h
    exact h front decl next rfl rfl hon
  · intro h front' decl' next' heq _ _
    obtain ⟨rfl, hpair⟩ := List.append_inj' heq rfl
    cases hpair
    exact h

/-! ### Declarations that run on -/

theorem decide_ne_keep_iff {context : DeclarationContext} :
    converter.decide context ≠ .keep ↔
      (converter.isBlacklisted context = false ∧ converter.isEligible context = true ∧
        converter.mentionsUnit context.value = true) ∧
          converter.convertValue context.value ≠ context.value := by
  unfold decide
  split
  · rename_i hkeep
    simp only [Bool.or_eq_true, Bool.not_eq_true'] at hkeep
    apply iff_of_false (by simp)
    rintro ⟨⟨hlisted, heligible, hmentions⟩, -⟩
    simp_all
  · rename_i hkeep
    dsimp only
    split
    · simp_all
    · split <;> simp_all

section Unmarked

variable (hmarker : converter.marker = [])
  (htarget : ∀ unit ∈ converter.units, unit.name ≠ targetUnit)

include hmarker htarget

/-- A declaration that is not kept is not kept with more text behind its last word either. -/
theorem decide_append_ne_keep {context : DeclarationContext} {more : Text}
    (h : converter.decide context ≠ .keep) (hmore : StartsOff continuesWord more) :
    converter.decide { context with value := context.value ++ more } ≠ .keep := by
  obtain ⟨⟨hlisted, heligible, hmentions⟩, hvalue⟩ := decide_ne_keep_iff.mp h
  refine decide_ne_keep_iff.mpr ⟨⟨hlisted, heligible, ?_⟩,
    convertValue_append_ne hmarker htarget hvalue hmore⟩
  obtain ⟨unit, hunit, hincludes⟩ := List.any_eq_true.mp hmentions
  exact List.any_eq_true.mpr ⟨unit, hunit, Text.includes_append hincludes more⟩

/-! ### What a step keeps -/

section Step

variable {around : Surroundings} {block : List Node}

/-- A declaration stays left as it is where the values that conversion does not change are
    still declared. -/
theorem Leaves.mono {block' : List Node} {decl : Declaration}
    (h : converter.Leaves around block decl)
    (hblock : ∀ prop value, converter.convertValue value = value →
      block.any (Node.declares prop value) = true → block'.any (Node.declares prop value) = true) :
    converter.Leaves around block' decl :=
  h.imp_right (hblock _ _ (convertValue_convertValue hmarker htarget _))

theorem leaves_converted (decl : Declaration) :
    converter.Leaves around block (converter.converted decl) :=
  Or.inl (decide_eq_keep (convertValue_convertValue hmarker htarget _))

omit hmarker htarget in
theorem any_declares_convertNode {prop value : Text} {node : Node}
    (hvalue : converter.convertValue value = value) (h : node.declares prop value = true) :
    (converter.convertNode around block node).1.any (Node.declares prop value) = true := by
  cases node with
  | declaration decl =>
    have hdecl : decl.prop = prop ∧ decl.value = value := by simpa [Node.declares] using h
    have hkeep : converter.Leaves around block decl :=
      Or.inl (decide_eq_keep (by rw [Surroundings.contextOf, hdecl.2]; exact hvalue))
    rw [(convertNode_of_leaves hkeep).1]
    simpa using h
  | _ => cases h

omit hmarker htarget in
theorem any_declares_step {prop value : Text} {done rest : List Node} {node : Node}
    (hvalue : converter.convertValue value = value)
    (h : (done ++ node :: rest).any (Node.declares prop value) = true) :
    (done ++ (converter.convertNode around block node).1 ++ rest).any
      (Node.declares prop value) = true := by
  simp only [List.any_append, List.any_cons, Bool.or_eq_true] at h ⊢
  rcases h with hdone | hnode | hrest
  · exact Or.inl (Or.inl hdone)
  · exact Or.inl (Or.inr (any_declares_convertNode hvalue hnode))
  · exact Or.inr hrest

/-- **What stands in the place of a node is left as it is** from then on, like what is in
    front of it. -/
theorem allLeft_step {done rest : List Node} {node : Node}
    (h : converter.AllLeft around (done ++ node :: rest) done) :
    let made := (converter.convertNode around (done ++ node :: rest) node).1
    converter.AllLeft around (done ++ made ++ rest) (done ++ made) := by
  intro made decl hdecl
  have hkept : ∀ {decl}, converter.Leaves around (done ++ node :: rest) decl →
      converter.Leaves around (done ++ made ++ rest) decl := fun hleaves =>
    hleaves.mono hmarker htarget fun prop value hvalue => any_declares_step hvalue
  rcases List.mem_append.mp hdecl with hdecl | hdecl
  · exact hkept (h decl hdecl)
  · obtain ⟨source, rfl, ⟨rfl, hleaves | hmem⟩ | rfl⟩ := declaration_mem_convertNode hdecl
    · exact hkept hleaves
    · refine Or.inr (List.any_eq_true.mpr ⟨.declaration (converter.converted decl), ?_, ?_⟩)
      · simp [made, hmem]
      · simp [Node.declares, converted, Declaration.withValue]
    · exact leaves_converted hmarker htarget source

end Step

/-! ### What is left behind a run -/

section Run

variable {around : Surroundings}

omit hmarker htarget in
theorem allLeft_of_not_runsOn {semicolon : Bool} {block : List Node}
    (hruns : ¬ Node.RunsOn semicolon block) (h : converter.AllLeft around block block) :
    let joined := Node.joinLast semicolon (Node.rejoinAll block)
    converter.AllLeft around joined joined := by
  intro joined decl hdecl
  have hjoined : joined = Node.rejoinAll block :=
    Node.joinLast_of_not_runsOn fun hagain => hruns (Node.runsOn_rejoinAll hagain)
  rw [hjoined] at hdecl ⊢
  apply (h decl (Node.declaration_mem_rejoinAll.mp hdecl)).imp_right
  intro hdeclared
  rw [Node.any_declares_rejoinAll]
  exact hdeclared

/-- **Where a declaration runs on** into the one that was put behind it, what is read is
    converted once more unless the result is declared in front of it. -/
theorem allLeft_rejoined_iff {done : List Node} {decl : Declaration} (hon : decl.runsOn = true)
    (hdone : converter.AllLeft around (done ++ [.declaration decl]) done)
    (hdecl : ¬ converter.Leaves around (done ++ [.declaration decl]) decl) :
    let next := converter.converted decl
    let joined := Node.rejoinAll done ++ decl.rejoined next
    converter.AllLeft around joined joined ↔
      done.any (Node.declares decl.prop
        (converter.convertValue (decl.extended next).value)) = true := by
  intro next joined
  have hkeep : converter.decide (around.contextOf decl) ≠ .keep := fun h => hdecl (Or.inl h)
  have hvalue : converter.convertValue decl.value ≠ decl.value := (decide_ne_keep_iff.mp hkeep).2
  obtain ⟨more, hextended⟩ := Declaration.exists_value_extended hon next
  have hmore : StartsOff continuesWord (';' :: more) := Text.startsOff_cons.mpr (by decide)
  have hchanges : converter.decide (around.contextOf (decl.extended next)) ≠ .keep := by
    have h := decide_append_ne_keep hmarker htarget hkeep hmore
    rw [Surroundings.contextOf, hextended]
    exact h
  -- Neither of the two that are read declares the converted longer value: that of the first
  -- changes, and that of the second is shorter.
  have hcut : (decl.rejoined next).any (Node.declares decl.prop
      (converter.convertValue (decl.extended next).value)) = false := by
    rw [List.any_eq_false]
    intro node hnode
    rcases Declaration.mem_rejoined hnode with rfl | ⟨before, rfl⟩
    · have hne : converter.convertValue (decl.extended next).value ≠ (decl.extended next).value :=
        (decide_ne_keep_iff.mp hchanges).2
      simpa [Node.declares] using fun _ => hne.symm
    · have hne := convertValue_append_ne_convertValue hmarker decl.value
        (List.cons_ne_nil ';' more) hmore
      rw [← hextended] at hne
      simpa [Node.declares, next, converted, Declaration.withValue] using hne.symm
  constructor
  · intro h
    have hmem : .declaration (decl.extended next) ∈ joined :=
      List.mem_append_right _ (Declaration.extended_mem_rejoined decl next)
    have hdeclared := (h _ hmem).resolve_left hchanges
    rw [List.any_append, Node.any_declares_rejoinAll, Bool.or_eq_true] at hdeclared
    apply hdeclared.resolve_right
    intro hpair
    exact absurd hpair (by rw [show (decl.extended next).prop = decl.prop from rfl, hcut]; simp)
  · intro h inner hinner
    rcases List.mem_append.mp hinner with hinner | hinner
    · refine (hdone inner (Node.declaration_mem_rejoinAll.mp hinner)).mono hmarker htarget
        fun prop value hfixed hdeclared => ?_
      rw [List.any_append, Node.any_declares_rejoinAll]
      rw [List.any_append, Bool.or_eq_true] at hdeclared
      rcases hdeclared with hdeclared | hdeclared
      · simp [hdeclared]
      · -- The value of the declaration itself is one that conversion changes.
        have hsame : decl.prop = prop ∧ decl.value = value := by
          simpa [Node.declares] using hdeclared
        exact absurd (hsame.2 ▸ hfixed) hvalue
    · rcases Declaration.mem_rejoined hinner with hinner | ⟨before, hinner⟩
      · cases hinner
        apply Or.inr
        rw [List.any_append, Node.any_declares_rejoinAll, Bool.or_eq_true]
        exact Or.inl h
      · cases hinner
        exact Or.inl (decide_eq_keep (convertValue_convertValue hmarker htarget decl.value))

/-- **After a run every declaration is left as it is**, if and only if what is read where the
    block runs on is declared in its converted form. -/
theorem allLeft_iff_recovers {after : Text} {stop : Option Char} {semicolon : Bool} :
    ∀ {nodes : List Node} {closed : Bool}, Node.AllRead after stop semicolon closed nodes →
      ∀ {done : List Node}, (∀ node ∈ done, node.Stops) →
        converter.AllLeft around (done ++ nodes) done →
          let block := done ++ (converter.convertAll around done nodes).1
          let joined := Node.joinLast semicolon (Node.rejoinAll block)
          converter.AllLeft around joined joined ↔ converter.Recovers semicolon block
  -- The induction moves what was converted over to `done`, whose nodes take in nothing and
  -- are left as they are.
  | [], _, _, done, hstops, hleft => by
    intro block joined
    have hblock : block = done := List.append_nil done
    have hruns : ¬ Node.RunsOn semicolon block := fun h =>
      Node.not_runsOn_nil semicolon (h.of_append hstops)
    rw [List.append_nil] at hleft
    exact iff_of_true (allLeft_of_not_runsOn hruns (hblock ▸ hleft)) (recovers_of_not_runsOn hruns)
  | [node], _, _, done, hstops, hleft => by
    intro block joined
    have hstep := allLeft_step hmarker htarget hleft
    have hblock : block = done ++ (converter.convertNode around (done ++ [node]) node).1 := by
      simp [block, convertAll]
    dsimp only at hstep
    rw [List.append_nil, ← hblock] at hstep
    -- Only a declaration that was put behind the last one can make the block run on.
    by_cases hruns : Node.RunsOn semicolon block
    · rcases converter.convertNode_cases around (done ++ [node]) node with
        ⟨made, hmade⟩ | ⟨decl, rfl, -, hdecl, hmade⟩
      · rw [hblock, hmade] at hruns
        exact absurd (hruns.of_append hstops) (Node.not_runsOn_singleton semicolon made)
      · rw [hblock, hmade] at hruns
        obtain ⟨rfl, hon⟩ := Node.runsOn_pair_iff.mp (hruns.of_append hstops)
        have hjoined : joined =
            Node.rejoinAll done ++ decl.rejoined (converter.converted decl) := by
          simp only [joined, hblock, hmade, Node.rejoinAll_append]
          exact Node.joinLast_of_runsOn hon _
        rw [hjoined, hblock, hmade, recovers_pair_iff hon]
        exact allLeft_rejoined_iff hmarker htarget hon hleft hdecl
    · exact iff_of_true (allLeft_of_not_runsOn hruns hstep) (recovers_of_not_runsOn hruns)
  | node :: next :: rest, _, ⟨hnode, hrest⟩, done, hstops, hleft => by
    rw [Node.isClosed_of_ne_nil semicolon (List.cons_ne_nil next rest)] at hnode
    have hmade := stops_convertNode hmarker hnode around (done ++ node :: next :: rest)
    have hstep := allLeft_step hmarker htarget hleft
    have hothers := allLeft_iff_recovers hrest
      (fun inner hinner => (List.mem_append.mp hinner).elim (hstops inner) (hmade inner)) hstep
    rw [convertAll_cons]
    dsimp only at hothers ⊢
    rw [List.append_assoc] at hothers
    exact hothers

end Run

/-! ### What is left inside of a tree -/

/-- The head of an at-rule that was converted is left as it is. -/
theorem isIdle_convertHead_convertHead (head : AtRule) :
    (converter.convertHead (converter.convertHead head).1).2.IsIdle := by
  rcases converter.convertHead_cases head with h | ⟨hmedia, -, h⟩
  · rw [h, h]
    exact Tally.isIdle_empty
  · have hmedia' : ({ head with params := converter.convertValue head.params } : AtRule).isMedia =
        true := hmedia
    have hnone : converter.convertMedia? (converter.convertValue head.params) = none := by
      unfold convertMedia?
      simp [convertValue_convertValue hmarker htarget]
    rw [h, convertHead, if_pos hmedia']
    simp only [hnone]
    exact Tally.isIdle_empty

theorem isIdle_joined_iff {around : Surroundings} {after : Text} {stop : Option Char}
    {semicolon closed : Bool} {nodes : List Node}
    (h : Node.AllRead after stop semicolon closed nodes)
    (hinside : let block := (converter.convertAll around [] nodes).1
      (∀ node ∈ block, converter.IsIdleInside around node.rejoin) ↔
        ∀ node ∈ Node.preorderAll block, converter.Recovers node.semicolon node.children) :
    let block := (converter.convertAll around [] nodes).1
    (converter.convertAll around [] (Node.joinLast semicolon (Node.rejoinAll block))).2.IsIdle ↔
      converter.Recovers semicolon block ∧
        ∀ node ∈ Node.preorderAll block, converter.Recovers node.semicolon node.children := by
  intro block
  have hnone : converter.AllLeft around nodes [] := fun _ hdecl => nomatch hdecl
  have hleft : converter.AllLeft around (Node.joinLast semicolon (Node.rejoinAll block))
      (Node.joinLast semicolon (Node.rejoinAll block)) ↔ converter.Recovers semicolon block :=
    allLeft_iff_recovers hmarker htarget h (List.forall_mem_nil Node.Stops) hnone
  rw [isIdle_convertAll_iff_allLeft, hleft, Node.forall_mem_joinLast (fun _ => trivial),
    Node.rejoinAll_eq_map, List.forall_mem_map]
  exact and_congr_right fun _ => hinside

end Unmarked

mutual

theorem isIdleInside_convertNode_iff (hmarker : converter.marker = [])
    (htarget : ∀ unit ∈ converter.units, unit.name ≠ targetUnit) {after : Text}
    {stop : Option Char} :
    ∀ {node : Node} {closed : Bool}, node.Reads after stop closed →
      ∀ (around : Surroundings) (block : List Node),
        (∀ made ∈ (converter.convertNode around block node).1,
            converter.IsIdleInside around made.rejoin) ↔
          ∀ inner ∈ Node.preorderAll (converter.convertNode around block node).1,
            converter.Recovers inner.semicolon inner.children
  | .rule head children, _, ⟨_, hchildren⟩, around, _ => by
    have hinside :=
      isIdleInside_convertAll_iff hmarker htarget hchildren (around.insideRule head) []
    rw [convertNode_rule]
    simp only [List.forall_mem_singleton, Node.preorderAll, Node.preorder, List.append_nil,
      List.forall_mem_cons, Node.rejoin, IsIdleInside, Node.semicolon, Node.children]
    exact isIdle_joined_iff hmarker htarget hchildren hinside
  | .atBlock head children, _, ⟨_, hchildren⟩, around, _ => by
    have hinside :=
      isIdleInside_convertAll_iff hmarker htarget hchildren (around.insideAtRule head) []
    have hhead := isIdle_convertHead_convertHead hmarker htarget head
    rw [convertNode_atBlock]
    simp only [List.forall_mem_singleton, Node.preorderAll, Node.preorder, List.append_nil,
      List.forall_mem_cons, Node.rejoin, IsIdleInside, Node.semicolon, Node.children, hhead,
      true_and, insideAtRule_convertHead, raws_convertHead]
    exact isIdle_joined_iff hmarker htarget hchildren hinside
  | .atLine head, _, _, around, _ => by
    have hhead := isIdle_convertHead_convertHead hmarker htarget head
    rw [convertNode_atLine]
    simp [Node.preorderAll, Node.preorder, Node.rejoin, IsIdleInside, Node.children, hhead,
      recovers_nil]
  | .declaration decl, _, _, around, block => by
    rcases converter.convertNode_declaration_cases around block decl with h | h | ⟨-, -, h⟩ <;>
      simp [h, Node.preorderAll, Node.preorder, Node.rejoin, IsIdleInside, Node.children,
        recovers_nil]
  | .comment note, _, _, _, _ => by
    simp [convertNode_comment, Node.preorderAll, Node.preorder, Node.rejoin, IsIdleInside,
      Node.children, recovers_nil]

/-- **Inside of the nodes of a block nothing is left to do** if and only if the blocks there
    recover. -/
theorem isIdleInside_convertAll_iff (hmarker : converter.marker = [])
    (htarget : ∀ unit ∈ converter.units, unit.name ≠ targetUnit) {after : Text}
    {stop : Option Char} {semicolon : Bool} :
    ∀ {nodes : List Node} {closed : Bool}, Node.AllRead after stop semicolon closed nodes →
      ∀ (around : Surroundings) (done : List Node),
        (∀ made ∈ (converter.convertAll around done nodes).1,
            converter.IsIdleInside around made.rejoin) ↔
          ∀ inner ∈ Node.preorderAll (converter.convertAll around done nodes).1,
            converter.Recovers inner.semicolon inner.children
  | [], _, _, _, _ => by simp [convertAll, Node.preorderAll]
  | node :: rest, _, ⟨hnode, hrest⟩, around, done => by
    have hfirst := isIdleInside_convertNode_iff hmarker htarget hnode around (done ++ node :: rest)
    have hothers := isIdleInside_convertAll_iff hmarker htarget hrest around
      (done ++ (converter.convertNode around (done ++ node :: rest) node).1)
    rw [convertAll_cons]
    simp only [Node.preorderAll_append, List.forall_mem_append]
    rw [hfirst, hothers]

end

end Converter

end EmScale
