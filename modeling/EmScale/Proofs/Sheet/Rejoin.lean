/-
  EmScale/Proofs/Sheet/Rejoin.lean
  ================================
  **Trees whose last declarations run on.**

  A tree that was changed may hold a declaration that runs on in front of the last
  declaration of a block.  `Stylesheet.rejoin` joins the two everywhere, as they are read
  from their text.  It leaves a block alone unless the block runs on (`Node.RunsOn`).
-/
import EmScale.Proofs.Sheet.RunOn

namespace EmScale

namespace Node

/-! ### Blocks that run on -/

/-- The last declaration of a block that no semicolon closes is taken in by the one in front
    of it. -/
def RunsOn (semicolon : Bool) (nodes : List Node) : Prop :=
  ∃ front decl next, nodes = front ++ [declaration decl, declaration next] ∧
    semicolon = false ∧ decl.runsOn = true

/-- A node that takes in nothing: it is no declaration, or a semicolon closes it. -/
def Stops : Node → Prop
  | declaration decl => decl.runsOn = false
  | rule .. | atBlock .. | atLine _ | comment _ => True

/-- The nodes of a block with the last two of them joined if they run on. -/
def joinLast (semicolon : Bool) : List Node → List Node
  | [] => []
  | [declaration decl, declaration next] =>
    if semicolon = false ∧ decl.runsOn = true then decl.rejoined next
    else [declaration decl, declaration next]
  | node :: rest => node :: joinLast semicolon rest

theorem not_runsOn_nil (semicolon : Bool) : ¬ RunsOn semicolon [] := by
  rintro ⟨front, decl, next, heq, -⟩
  simp at heq

theorem not_runsOn_singleton (semicolon : Bool) (node : Node) : ¬ RunsOn semicolon [node] := by
  rintro ⟨front, decl, next, heq, -⟩
  have hlength := congrArg List.length heq
  simp at hlength

theorem runsOn_pair_iff {semicolon : Bool} {decl next : Declaration} :
    RunsOn semicolon [declaration decl, declaration next] ↔
      semicolon = false ∧ decl.runsOn = true := by
  constructor
  · rintro ⟨front, decl', next', heq, hon⟩
    have heq : [] ++ [declaration decl, declaration next] =
      front ++ [declaration decl', declaration next'] := heq
    obtain ⟨-, hpair⟩ := List.append_inj' heq rfl
    cases hpair
    exact hon
  · intro hon
    exact ⟨[], decl, next, rfl, hon⟩

theorem exists_of_map_eq_pair {f : Node → Node} {nodes front : List Node} {a b : Node}
    (h : nodes.map f = front ++ [a, b]) :
    ∃ before first second, nodes = before ++ [first, second] ∧ before.map f = front ∧
      f first = a ∧ f second = b := by
  obtain ⟨before, pair, rfl, hbefore, hpair⟩ := List.map_eq_append_iff.mp h
  obtain ⟨first, rest, rfl, hfirst, hrest⟩ := List.map_eq_cons_iff.mp hpair
  obtain ⟨second, rfl, hsecond⟩ := List.map_eq_singleton_iff.mp hrest
  exact ⟨before, first, second, rfl, hbefore, hfirst, hsecond⟩

/-- Nodes that take in nothing can be left out in front. -/
theorem RunsOn.of_append {semicolon : Bool} {front rest : List Node}
    (h : RunsOn semicolon (front ++ rest)) (hfront : ∀ node ∈ front, node.Stops) :
    RunsOn semicolon rest := by
  induction front with
  | nil => exact h
  | cons node front ih =>
    obtain ⟨before, decl, next, heq, hon⟩ := h
    refine ih ?_ fun inner hinner => hfront inner (by simp [hinner])
    rcases before with _ | ⟨first, before⟩
    · obtain ⟨rfl, -⟩ := List.cons.inj heq
      have hstops : decl.runsOn = false := hfront (declaration decl) (by simp)
      rw [hstops] at hon
      exact absurd hon.2 (by simp)
    · exact ⟨before, decl, next, (List.cons.inj heq).2, hon⟩

theorem joinLast_pair (semicolon : Bool) (decl next : Declaration) :
    joinLast semicolon [declaration decl, declaration next] =
      if semicolon = false ∧ decl.runsOn = true then decl.rejoined next
      else [declaration decl, declaration next] := by
  rw [joinLast]

@[simp] theorem joinLast_singleton (semicolon : Bool) (node : Node) :
    joinLast semicolon [node] = [node] := by
  simp [joinLast]

theorem joinLast_cons_cons_cons (semicolon : Bool) (node other another : Node)
    (rest : List Node) :
    joinLast semicolon (node :: other :: another :: rest) =
      node :: joinLast semicolon (other :: another :: rest) := by
  conv => lhs; unfold joinLast
  split <;> simp_all

theorem joinLast_cons_of_stops (semicolon : Bool) {node : Node} (h : node.Stops)
    (rest : List Node) : joinLast semicolon (node :: rest) = node :: joinLast semicolon rest := by
  conv => lhs; unfold joinLast
  split
  · simp_all
  · rename_i decl next heq
    obtain ⟨rfl, rfl⟩ := List.cons.inj heq
    have hstops : decl.runsOn = false := h
    simp [hstops]
  · rename_i heq
    obtain ⟨rfl, rfl⟩ := List.cons.inj heq
    rfl

theorem joinLast_append_of_stops (semicolon : Bool) {front : List Node}
    (h : ∀ node ∈ front, node.Stops) (rest : List Node) :
    joinLast semicolon (front ++ rest) = front ++ joinLast semicolon rest := by
  induction front with
  | nil => rfl
  | cons node front ih =>
    rw [List.cons_append, joinLast_cons_of_stops semicolon (h node (by simp)),
      ih fun inner hinner => h inner (by simp [hinner]), List.cons_append]

theorem joinLast_of_not_runsOn {semicolon : Bool} {nodes : List Node}
    (h : ¬ RunsOn semicolon nodes) : joinLast semicolon nodes = nodes := by
  fun_induction joinLast semicolon nodes with
  | case1 => rfl
  | case2 decl next hon => exact absurd ⟨[], decl, next, rfl, hon⟩ h
  | case3 => rfl
  | case4 node rest _ ih =>
    refine congrArg (node :: ·) (ih fun hrest => h ?_)
    obtain ⟨front, decl, next, rfl, hon⟩ := hrest
    exact ⟨node :: front, decl, next, rfl, hon⟩

/-- The declarations of a block that runs on are all that is joined. -/
theorem joinLast_of_runsOn {decl next : Declaration} (hon : decl.runsOn = true)
    (front : List Node) :
    joinLast false (front ++ [declaration decl, declaration next]) =
      front ++ decl.rejoined next := by
  induction front with
  | nil => simp [joinLast, hon]
  | cons node front ih =>
    rw [List.cons_append, List.cons_append, ← ih]
    rcases front with _ | ⟨other, _ | ⟨another, front⟩⟩ <;> exact joinLast_cons_cons_cons ..

/-! ### Trees -/

mutual

/-- A node as it is read, but for names of at-rules that go on. -/
def rejoin : Node → Node
  | rule head children => rule head (joinLast head.raws.semicolon (rejoinAll children))
  | atBlock head children => atBlock head (joinLast head.raws.semicolon (rejoinAll children))
  | atLine head => atLine head
  | declaration decl => declaration decl
  | comment note => comment note

/-- The nodes of a block, each as it is read. -/
def rejoinAll : List Node → List Node
  | [] => []
  | node :: rest => node.rejoin :: rejoinAll rest

end

theorem rejoinAll_eq_map (nodes : List Node) : rejoinAll nodes = nodes.map rejoin := by
  induction nodes with
  | nil => rfl
  | cons node rest ih => rw [rejoinAll, ih, List.map_cons]

theorem rejoinAll_append (nodes others : List Node) :
    rejoinAll (nodes ++ others) = rejoinAll nodes ++ rejoinAll others := by
  simp [rejoinAll_eq_map]

@[simp] theorem declares_rejoin (prop value : Text) (node : Node) :
    node.rejoin.declares prop value = node.declares prop value := by
  cases node <;> rfl

@[simp] theorem any_declares_rejoinAll (prop value : Text) (nodes : List Node) :
    (rejoinAll nodes).any (declares prop value) = nodes.any (declares prop value) := by
  induction nodes with
  | nil => rfl
  | cons node rest ih => simp [rejoinAll, ih]

@[simp] theorem takesSemicolon_rejoin (node : Node) :
    node.rejoin.takesSemicolon = node.takesSemicolon := by
  cases node <;> rfl

@[simp] theorem before_rejoin (node : Node) : node.rejoin.before = node.before := by
  cases node <;> rfl

@[simp] theorem isEmpty_rejoinAll (nodes : List Node) :
    (rejoinAll nodes).isEmpty = nodes.isEmpty := by
  cases nodes <;> rfl

theorem stops_rejoin {node : Node} : node.rejoin.Stops ↔ node.Stops := by
  cases node <;> rfl

theorem joinLast_eq_nil_iff {semicolon : Bool} {nodes : List Node} :
    joinLast semicolon nodes = [] ↔ nodes = [] := by
  fun_cases joinLast semicolon nodes with
  | case1 => rfl
  | case2 decl next hon => simp [Declaration.rejoined_ne_nil]
  | case3 | case4 => simp

/-- What holds of every declaration need not be asked of the two that are joined. -/
theorem forall_mem_joinLast {P : Node → Prop} (hP : ∀ decl, P (declaration decl))
    (semicolon : Bool) (nodes : List Node) :
    (∀ node ∈ joinLast semicolon nodes, P node) ↔ ∀ node ∈ nodes, P node := by
  fun_induction joinLast semicolon nodes with
  | case1 => rfl
  | case2 decl next hon =>
    refine iff_of_true (fun node hnode => ?_) (by simp [hP])
    obtain ⟨inner, rfl⟩ := Declaration.exists_of_mem_rejoined hnode
    exact hP inner
  | case3 => rfl
  | case4 node rest _ ih => rw [List.forall_mem_cons, List.forall_mem_cons, ih]

theorem rejoin_eq_declaration_iff {node : Node} {decl : Declaration} :
    node.rejoin = declaration decl ↔ node = declaration decl := by
  cases node <;> simp [rejoin]

theorem declaration_mem_rejoinAll {decl : Declaration} {nodes : List Node} :
    declaration decl ∈ rejoinAll nodes ↔ declaration decl ∈ nodes := by
  simp [rejoinAll_eq_map, rejoin_eq_declaration_iff]

theorem runsOn_rejoinAll {semicolon : Bool} {nodes : List Node}
    (h : RunsOn semicolon (rejoinAll nodes)) : RunsOn semicolon nodes := by
  obtain ⟨front, decl, next, heq, hon⟩ := h
  rw [rejoinAll_eq_map] at heq
  obtain ⟨before, first, second, rfl, -, hfirst, hsecond⟩ := exists_of_map_eq_pair heq
  rw [rejoin_eq_declaration_iff.mp hfirst, rejoin_eq_declaration_iff.mp hsecond]
  exact ⟨before, decl, next, rfl, hon⟩

/-! ### Blocks put together -/

theorem isClosed_of_ne_nil (semicolon : Bool) {rest : List Node} (hrest : rest ≠ [])
    (node : Node) : node.isClosed semicolon rest = node.takesSemicolon := by
  simp [isClosed, hrest]

section Append

variable {Q : AtRule → Text → Option Char → Prop} {after : Text} {stop : Option Char}
  {semicolon closed : Bool} {front rest : List Node}

theorem stops_of_fits {node : Node} (h : node.Fits Q after stop node.takesSemicolon) :
    node.Stops := by
  cases node with
  | declaration decl =>
    have hends : (Lexis.run {} (declaration decl).body).stops ';' = true := h.2.statement.ends
    simp [Stops, Declaration.runsOn, hends]
  | _ => trivial

theorem AllFit.congr_closed (hrest : rest ≠ []) (h : AllFit Q after stop semicolon closed rest)
    (closed' : Bool) : AllFit Q after stop semicolon closed' rest := by
  cases rest with
  | nil => exact absurd rfl hrest
  | cons node rest => exact h

theorem allFit_append (hrest : rest ≠ [])
    (hfront : ∀ node ∈ front, node.Fits Q after stop node.takesSemicolon)
    (h : AllFit Q after stop semicolon closed rest) :
    AllFit Q after stop semicolon closed (front ++ rest) := by
  induction front generalizing closed with
  | nil => exact h
  | cons node front ih =>
    have hne := List.append_ne_nil_of_right_ne_nil front hrest
    have hclosed := isClosed_of_ne_nil semicolon hne node
    rw [List.cons_append, AllFit, hclosed]
    exact ⟨hfront node (by simp),
      ih (fun inner hinner => hfront inner (by simp [hinner])) (h.congr_closed hrest _)⟩

/-- The text of a block depends on the texts of its nodes. -/
theorem printAll_rejoinAll_append {rest' : List Node} (hrest : rest ≠ []) (hrest' : rest' ≠ [])
    (hfront : ∀ node ∈ front, node.rejoin.body = node.body)
    (h : printAll semicolon rest' = printAll semicolon rest) :
    printAll semicolon (rejoinAll front ++ rest') = printAll semicolon (front ++ rest) := by
  induction front with
  | nil => exact h
  | cons node front ih =>
    have htail := ih fun inner hinner => hfront inner (by simp [hinner])
    rw [rejoinAll, List.cons_append, List.cons_append, printAll, printAll, htail, before_rejoin,
      hfront node (by simp), closer, closer,
      isClosed_of_ne_nil _ (List.append_ne_nil_of_right_ne_nil _ hrest'),
      isClosed_of_ne_nil _ (List.append_ne_nil_of_right_ne_nil _ hrest), takesSemicolon_rejoin]

end Append

/-- The nodes of a block that, once they are joined, have their shape at their places and the
    text they had. -/
def AllJoin (Q : AtRule → Text → Option Char → Prop) (after : Text) (stop : Option Char)
    (semicolon closed : Bool) (nodes : List Node) : Prop :=
  AllFit Q after stop semicolon closed (joinLast semicolon (rejoinAll nodes)) ∧
    printAll semicolon (joinLast semicolon (rejoinAll nodes)) = printAll semicolon nodes

/-! ### Trees that stay -/

/-- Whether a semicolon closes the last node of the block of a node. -/
def semicolon : Node → Bool
  | rule head _ => head.raws.semicolon
  | atBlock head _ => head.raws.semicolon
  | atLine _ | declaration _ | comment _ => false

mutual

theorem rejoin_eq_self : ∀ {node : Node},
    (∀ inner ∈ node.preorder, ¬ RunsOn inner.semicolon inner.children) → node.rejoin = node
  | rule head children, h | atBlock head children, h => by
    simp only [preorder, List.forall_mem_cons, semicolon, Node.children] at h
    rw [rejoin, rejoinAll_eq_self h.2, joinLast_of_not_runsOn h.1]
  | atLine _, _ | declaration _, _ | comment _, _ => rfl

theorem rejoinAll_eq_self : ∀ {nodes : List Node},
    (∀ inner ∈ preorderAll nodes, ¬ RunsOn inner.semicolon inner.children) →
      rejoinAll nodes = nodes
  | [], _ => rfl
  | node :: rest, h => by
    simp only [preorderAll, List.forall_mem_append] at h
    rw [rejoinAll, rejoin_eq_self h.1, rejoinAll_eq_self h.2]

end

/-! ### Spans -/

theorem exists_of_erase_eq {node : Node} {decl : Declaration}
    (h : node.erase = declaration decl) : ∃ inner, node = declaration inner := by
  cases node with
  | declaration inner => exact ⟨inner, rfl⟩
  | _ => cases h

@[simp] theorem semicolon_erase (node : Node) : node.erase.semicolon = node.semicolon := by
  cases node <;> rfl

theorem eraseAll_rejoined (decl next : Declaration) :
    eraseAll (decl.rejoined next) =
      ({ decl with span := {} } : Declaration).rejoined { next with span := {} } := by
  have hintake : ({ decl with span := {} } : Declaration).intake { next with span := {} } =
      decl.intake next := rfl
  unfold Declaration.rejoined Declaration.extended
  rw [hintake]
  split <;> rfl

theorem joinLast_eraseAll (semicolon : Bool) (nodes : List Node) :
    joinLast semicolon (eraseAll nodes) = eraseAll (joinLast semicolon nodes) := by
  fun_induction joinLast semicolon nodes with
  | case1 => rfl
  | case2 decl next hon =>
    rw [eraseAll_rejoined]
    exact if_pos hon
  | case3 decl next hon => exact if_neg hon
  | case4 node rest hpair ih =>
    rw [eraseAll, eraseAll, ← ih, joinLast]
    intro decl next hnode hrest
    obtain ⟨decl, rfl⟩ := exists_of_erase_eq hnode
    rcases rest with _ | ⟨other, _ | ⟨another, rest⟩⟩
    · cases hrest
    · obtain ⟨next, rfl⟩ := exists_of_erase_eq (List.singleton_inj.mp hrest)
      exact hpair decl next rfl rfl
    · exact absurd hrest (by simp [eraseAll])

mutual

theorem rejoin_erase : ∀ node : Node, node.erase.rejoin = node.rejoin.erase
  | rule _ children | atBlock _ children => by
    simp [erase, rejoin, rejoinAll_eraseAll children, joinLast_eraseAll]
  | atLine _ | declaration _ | comment _ => rfl

theorem rejoinAll_eraseAll : ∀ nodes : List Node,
    rejoinAll (eraseAll nodes) = eraseAll (rejoinAll nodes)
  | [] => rfl
  | node :: rest => by
    simp [eraseAll, rejoinAll, rejoin_erase node, rejoinAll_eraseAll rest]

end

end Node

namespace Stylesheet

/-- A stylesheet as it is read, but for names of at-rules that go on. -/
def rejoin (sheet : Stylesheet) : Stylesheet :=
  { sheet with nodes := Node.joinLast sheet.semicolon (Node.rejoinAll sheet.nodes) }

theorem erase_rejoin (sheet : Stylesheet) : sheet.rejoin.erase = sheet.erase.rejoin := by
  simp [rejoin, erase, Node.rejoinAll_eraseAll, Node.joinLast_eraseAll]

theorem rejoin_eq_self {sheet : Stylesheet} (hroot : ¬ Node.RunsOn sheet.semicolon sheet.nodes)
    (h : ∀ node ∈ sheet.allNodes, ¬ Node.RunsOn node.semicolon node.children) :
    sheet.rejoin = sheet := by
  rw [rejoin, Node.rejoinAll_eq_self h, Node.joinLast_of_not_runsOn hroot]

end Stylesheet

end EmScale
