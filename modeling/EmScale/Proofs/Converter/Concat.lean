/-
  EmScale/Proofs/Converter/Concat.lean
  ====================================
  **Converting two stylesheets behind one another.**

  A run asks of a block only which declarations are in it.  Nodes behind a block without
  declarations are therefore converted as if they stood alone, and what two stylesheets are
  converted to stands behind one another as the two do (`Converter.convertAll_append`).

  The blanks and semicolons that the first text ends with belong to the first node of the
  second one.  A declaration that is put behind that node repeats what stands before it, and
  only then the text of the whole is not that of the parts (`Converter.process_append`).
-/
import EmScale.Proofs.Converter.Transform
import EmScale.Proofs.Sheet.Concat

namespace EmScale.Converter

variable {converter : Converter} {around : Surroundings}

/-! ### What a run asks of a block -/

theorem convertNode_congr {block block' : List Node} (node : Node)
    (h : ∀ prop value, block.any (Node.declares prop value) =
      block'.any (Node.declares prop value)) :
    converter.convertNode around block node = converter.convertNode around block' node := by
  cases node with
  | declaration decl =>
    rw [convertNode_declaration, convertNode_declaration]
    cases converter.decide (around.contextOf decl) <;> simp only [Decision.emit, h]
  | _ => rfl

/-- **A run asks of the nodes in front only what they declare.** -/
theorem convertAll_congr {done done' nodes : List Node}
    (h : ∀ prop value, done.any (Node.declares prop value) =
      done'.any (Node.declares prop value)) :
    converter.convertAll around done nodes = converter.convertAll around done' nodes := by
  induction nodes generalizing done done' with
  | nil => rfl
  | cons node rest ih =>
    have hnode : converter.convertNode around (done ++ node :: rest) node =
        converter.convertNode around (done' ++ node :: rest) node := by
      apply convertNode_congr
      intro prop value
      rw [List.any_append, List.any_append, h]
    rw [convertAll_cons, convertAll_cons, hnode]
    dsimp only
    rw [ih]
    intro prop value
    rw [List.any_append, List.any_append, h]

/-! ### Behind a block without declarations -/

/-- One node that is no declaration either stands in the place of such a node, whatever the
    block around it. -/
theorem convertNode_of_declaration?_eq_none {node : Node} (h : node.declaration? = none)
    (converter : Converter) (around : Surroundings) :
    ∃ made tally, (∀ block, converter.convertNode around block node = ([made], tally)) ∧
      made.declaration? = none ∧ made.takesSemicolon = node.takesSemicolon := by
  cases node with
  | declaration decl => cases h
  | _ => exact ⟨_, _, fun _ => rfl, rfl, rfl⟩

theorem any_declares_append_singleton {node : Node} (h : node.declaration? = none)
    (done : List Node) (prop value : Text) :
    (done ++ [node]).any (Node.declares prop value) = done.any (Node.declares prop value) := by
  cases node with
  | declaration decl => cases h
  | _ => simp [Node.declares]

/-- **Nodes behind a block without declarations are converted as if it were not there.** -/
theorem convertAll_append {front : List Node} (hfront : ∀ node ∈ front, node.declaration? = none)
    (done rest : List Node) :
    converter.convertAll around done (front ++ rest) =
      ((converter.convertAll around done front).1 ++ (converter.convertAll around done rest).1,
        (converter.convertAll around done front).2 +
          (converter.convertAll around done rest).2) := by
  induction front generalizing done with
  | nil => rw [List.nil_append, convertAll, Tally.empty_add, List.nil_append]
  | cons node front ih =>
    obtain ⟨hnode, hfront⟩ := List.forall_mem_cons.mp hfront
    obtain ⟨made, tally, hconvert, hmade, -⟩ :=
      convertNode_of_declaration?_eq_none hnode converter around
    have hrest : converter.convertAll around (done ++ [made]) rest =
        converter.convertAll around done rest :=
      convertAll_congr (any_declares_append_singleton hmade done)
    rw [List.cons_append, convertAll_cons, convertAll_cons, hconvert, hconvert]
    dsimp only
    rw [ih hfront, hrest, List.append_assoc, Tally.add_assoc]

theorem takesSemicolon_convertAll {nodes : List Node}
    (h : ∀ node ∈ nodes, node.declaration? = none) (done : List Node) :
    (converter.convertAll around done nodes).1.map Node.takesSemicolon =
      nodes.map Node.takesSemicolon := by
  induction nodes generalizing done with
  | nil => rfl
  | cons node rest ih =>
    obtain ⟨hnode, hrest⟩ := List.forall_mem_cons.mp h
    obtain ⟨made, tally, hconvert, -, htakes⟩ :=
      convertNode_of_declaration?_eq_none hnode converter around
    rw [convertAll_cons, hconvert]
    dsimp only
    rw [List.singleton_append, List.map_cons, List.map_cons, htakes, ih hrest]

/-! ### Blanks in front of a node -/

theorem convertHead_withRaws (head : AtRule) (raws : BlockRaws) :
    converter.convertHead { head with raws } =
      ({ (converter.convertHead head).1 with raws }, (converter.convertHead head).2) := by
  rw [fst_convertHead head]
  exact convertHead_congr rfl rfl

/-- All that stands in the place of a node has the blanks of the node before it. -/
theorem convertNode_prepend (front : Text) (block : List Node) (node : Node) :
    converter.convertNode around block (node.prepend front) =
      ((converter.convertNode around block node).1.map (Node.prepend front),
        (converter.convertNode around block node).2) := by
  cases node with
  | rule head children => rfl
  | atBlock head children =>
    have hinside : ∀ raws, around.insideAtRule { head with raws } = around.insideAtRule head :=
      fun _ => rfl
    rw [Node.prepend, convertNode_atBlock, convertNode_atBlock, convertHead_withRaws, hinside,
      ← raws_convertHead head]
    rfl
  | atLine head =>
    rw [Node.prepend, convertNode_atLine, convertNode_atLine, convertHead_withRaws,
      ← raws_convertHead head]
    rfl
  | declaration decl =>
    have hcontext : around.contextOf { decl with before := front ++ decl.before } =
        around.contextOf decl := rfl
    rw [Node.prepend, convertNode_declaration, convertNode_declaration, hcontext]
    cases converter.decide (around.contextOf decl) with
    | keep => rfl
    | replace value | append value =>
      unfold Decision.emit
      dsimp only
      split <;> rfl
  | comment note => rfl

theorem any_declares_map_prepend (front : Text) (nodes : List Node) (prop value : Text) :
    (nodes.map (Node.prepend front)).any (Node.declares prop value) =
      nodes.any (Node.declares prop value) := by
  simp [List.any_map, Function.comp_def]

theorem convertAll_prepend_cons (front : Text) (done : List Node) (node : Node)
    (rest : List Node) :
    let made := converter.convertNode around (done ++ node :: rest) node
    converter.convertAll around done (node.prepend front :: rest) =
      (made.1.map (Node.prepend front) ++ (converter.convertAll around (done ++ made.1) rest).1,
        (converter.convertAll around done (node :: rest)).2) := by
  intro made
  have hnode : converter.convertNode around (done ++ node.prepend front :: rest)
      (node.prepend front) = (made.1.map (Node.prepend front), made.2) := by
    rw [← convertNode_prepend]
    apply convertNode_congr
    simp
  have hrest : converter.convertAll around (done ++ made.1.map (Node.prepend front)) rest =
      converter.convertAll around (done ++ made.1) rest := by
    apply convertAll_congr
    intro prop value
    rw [List.any_append, List.any_append, any_declares_map_prepend]
  rw [convertAll_cons, convertAll_cons, hnode]
  dsimp only
  rw [hrest]

/-! ### Stylesheets behind one another -/

/-- A declaration is put behind the first node of a stylesheet. -/
def AppendsFirst (converter : Converter) (sheet : Stylesheet) : Prop :=
  converter.options.replace = false ∧ ∃ decl rest,
    sheet.nodes = .declaration decl :: rest ∧ ¬ converter.Leaves {} sheet.nodes decl

section Transform

variable {path : Option Text} (hpath : converter.isExcluded path = false)
  {first : Stylesheet} (hfirst : ∀ node ∈ first.nodes, node.declaration? = none)

include hpath hfirst

/-- **What is done with two stylesheets is done with both together.** -/
theorem tally_transform_append (second : Stylesheet) :
    (converter.transform path (first.append second)).2.tally =
      (converter.transform path first).2.tally + (converter.transform path second).2.tally := by
  simp only [transform_eq hpath]
  rcases second with ⟨_ | ⟨node, rest⟩, after, semicolon⟩
  · rfl
  · simp only [Stylesheet.append, convertAll_append hfirst, convertAll_prepend_cons]

/-- Two stylesheets are converted to what they are converted to alone, behind one another. -/
theorem transform_append {second : Stylesheet} (h : ¬ converter.AppendsFirst second) :
    (converter.transform path (first.append second)).1 =
      (converter.transform path first).1.append (converter.transform path second).1 := by
  simp only [transform_eq hpath]
  rcases second with ⟨_ | ⟨node, rest⟩, after, semicolon⟩
  · rfl
  · have hsingle : ∃ made, (converter.convertNode {} (node :: rest) node).1 = [made] := by
      rcases converter.convertNode_cases {} (node :: rest) node with
        hmade | ⟨decl, rfl, hreplace, hleaves, -⟩
      · exact hmade
      · exact absurd ⟨hreplace, decl, rest, rfl, hleaves⟩ h
    obtain ⟨made, hmade⟩ := hsingle
    simp only [Stylesheet.append, convertAll_append hfirst, convertAll_prepend_cons]
    simp only [convertAll_cons, List.nil_append, hmade, List.map_cons, List.map_nil,
      List.cons_append]

/-- A declaration that is put behind the first node of the second stylesheet has the blanks
    and semicolons behind the first stylesheet before it too. -/
theorem transform_append_of_appendsFirst {second : Stylesheet}
    (h : converter.AppendsFirst second) :
    ∃ node inserted others,
      second.nodes.head? = some node ∧ node.takesSemicolon = true ∧
        (converter.transform path second).1.nodes = node :: inserted :: others ∧
          (converter.transform path (first.append second)).1 =
            (converter.transform path first).1.append
              { (converter.transform path second).1 with
                nodes := node :: inserted.prepend first.after :: others } := by
  obtain ⟨hreplace, decl, rest, hnodes, hleaves⟩ := h
  rcases second with ⟨nodes, after, semicolon⟩
  obtain rfl : nodes = .declaration decl :: rest := hnodes
  have hmade := (convertNode_of_not_leaves hleaves).1
  rw [if_neg (by simp [hreplace])] at hmade
  refine ⟨.declaration decl, .declaration (converter.converted decl),
    (converter.convertAll {}
      [.declaration decl, .declaration (converter.converted decl)] rest).1, rfl, rfl, ?_, ?_⟩
  · simp only [transform_eq hpath, convertAll_cons, List.nil_append, hmade]
    rfl
  · simp only [transform_eq hpath, Stylesheet.append, convertAll_append hfirst,
      convertAll_prepend_cons]
    simp only [List.nil_append, hmade, List.map_cons, List.map_nil, List.cons_append]

theorem endsClosed_transform (hclosed : first.EndsClosed) :
    (converter.transform path first).1.EndsClosed := by
  have htakes := @takesSemicolon_convertAll converter {} _ hfirst []
  have hlast := congrArg List.getLast? htakes
  rw [transform_eq hpath]
  intro made hmade htakes
  rw [List.getLast?_map, List.getLast?_map, hmade] at hlast
  obtain ⟨node, hnode, hsame⟩ := Option.map_eq_some_iff.mp hlast.symm
  exact hclosed node hnode (hsame.trans htakes)

theorem print_transform_append (hclosed : first.EndsClosed) {second : Stylesheet}
    (h : ¬ converter.AppendsFirst second) :
    (converter.transform path (first.append second)).1.print =
      (converter.transform path first).1.print ++ (converter.transform path second).1.print := by
  rw [transform_append hpath hfirst h,
    Stylesheet.print_append (endsClosed_transform hpath hfirst hclosed)]

theorem print_transform_append_of_appendsFirst (hclosed : first.EndsClosed) {second : Stylesheet}
    (h : converter.AppendsFirst second) :
    ∃ node ∈ second.nodes.head?, ∃ behind,
      (converter.transform path second).1.print = node.before ++ node.body ++ ';' :: behind ∧
        (converter.transform path (first.append second)).1.print =
          (converter.transform path first).1.print ++
            (node.before ++ node.body ++ ';' :: (first.after ++ behind)) := by
  obtain ⟨node, inserted, others, hnode, htakes, hnodes, hmade⟩ :=
    transform_append_of_appendsFirst hpath hfirst h
  rw [hmade, Stylesheet.print_append (endsClosed_transform hpath hfirst hclosed)]
  generalize (converter.transform path second).1 = converted at *
  refine ⟨node, hnode, { converted with nodes := inserted :: others }.print, ?_, ?_⟩
  · simp [Stylesheet.print, hnodes, Node.printAll_cons_cons htakes]
  · simp [Stylesheet.print, Node.printAll_cons_cons htakes, Node.printAll_prepend_cons]

end Transform

/-! ### Texts behind one another -/

/-- What is made of a text is told by the stylesheet it is parsed to, whatever its spans. -/
theorem process_of_parse {path : Option Text} (hpath : converter.isExcluded path = false)
    {css : Text} {sheet other : Stylesheet} (hcss : Stylesheet.parse css = .ok sheet)
    (h : sheet.erase = other.erase) :
    converter.process path css =
      .ok ((converter.transform path other).1.print,
        { tally := (converter.transform path other).2.tally }) := by
  have hsheet := converter.transform_erase path sheet
  have hother := converter.transform_erase path other
  rw [h, hother, Prod.mk.injEq] at hsheet
  obtain ⟨htree, hreport⟩ := hsheet
  unfold process
  rw [hpath, if_neg (by simp), hcss]
  dsimp only
  rw [Stylesheet.print_eq_of_erase_eq htree.symm, ← hreport, transform_eq hpath]

/-- **The text of two stylesheets is converted to the texts they are converted to**, and what
    is done with it is what is done with the two.  Only a declaration that is put behind the
    first node of the second stylesheet has the blanks and semicolons behind the first
    stylesheet in front of it once more. -/
theorem process_append {path : Option Text} (hpath : converter.isExcluded path = false)
    {css more : Text} {first second : Stylesheet} (hcss : Stylesheet.parse css = .ok first)
    (hmore : Stylesheet.parse more = .ok second)
    (hfirst : ∀ node ∈ first.nodes, node.declaration? = none) (hclosed : first.EndsClosed) :
    ∃ out out' text tally tally',
      converter.process path css = .ok (out, { tally }) ∧
      converter.process path more = .ok (out', { tally := tally' }) ∧
      converter.process path (css ++ more) = .ok (text, { tally := tally + tally' }) ∧
      (text = out ++ out' ↔ first.after = [] ∨ ¬ converter.AppendsFirst second) ∧
      (converter.AppendsFirst second → ∃ node ∈ second.nodes.head?, ∃ behind,
        out' = node.before ++ node.body ++ ';' :: behind ∧
          text = out ++ (node.before ++ node.body ++ ';' :: (first.after ++ behind))) := by
  obtain ⟨sheet, hparse, hsheet⟩ := Stylesheet.exists_parse_append hclosed hcss hmore
  refine ⟨_, _, (converter.transform path (first.append second)).1.print, _, _,
    process_of_parse hpath hcss rfl, process_of_parse hpath hmore rfl, ?_, ?_⟩
  · rw [process_of_parse hpath hparse hsheet, tally_transform_append hpath hfirst]
  · by_cases h : converter.AppendsFirst second
    · obtain ⟨node, hnode, behind, hout, htext⟩ :=
        print_transform_append_of_appendsFirst hpath hfirst hclosed h
      rw [hout, htext]
      refine ⟨?_, fun _ => ⟨node, hnode, behind, rfl, rfl⟩⟩
      -- The two texts differ by what stands behind the first stylesheet.
      simp [h]
    · rw [print_transform_append hpath hfirst hclosed h]
      exact ⟨iff_of_true rfl (Or.inr h), fun happends => absurd happends h⟩

/-- Where the converted declaration stands there already, the blanks and the semicolon
    between the two texts are written once. -/
theorem process_append_twin :
    let converter := ofOptions { replace := false }
    ∃ first second, Stylesheet.parse "a{b:5px} ;".toList = .ok first ∧
      Stylesheet.parse "c:5px;c:0.05em".toList = .ok second ∧
      (∀ node ∈ first.nodes, node.declaration? = none) ∧ first.EndsClosed ∧
      first.after = " ;".toList ∧ ¬ converter.AppendsFirst second ∧
      ∃ out out' text tally tally',
        converter.process none "a{b:5px} ;".toList = .ok (out, { tally }) ∧
        converter.process none "c:5px;c:0.05em".toList = .ok (out', { tally := tally' }) ∧
        converter.process none ("a{b:5px} ;".toList ++ "c:5px;c:0.05em".toList) =
          .ok (text, { tally := tally + tally' }) ∧
        text = out ++ out' := by
  intro converter
  have hread : Stylesheet.read "a{b:5px} ;".toList = .ok {
      nodes := [.rule { selector := ['a'] } [
        .declaration { prop := ['b'], value := "5px".toList, between := [':'] }]],
      after := " ;".toList } := by
    cbv
  have hread' : Stylesheet.read "c:5px;c:0.05em".toList = .ok {
      nodes := [
        .declaration { prop := ['c'], value := "5px".toList, between := [':'] },
        .declaration { prop := ['c'], value := "0.05em".toList, between := [':'] }] } := by
    cbv
  obtain ⟨first, hcss, hfirst, hclosed, hafter⟩ : ∃ first,
      Stylesheet.parse "a{b:5px} ;".toList = .ok first ∧
        (∀ node ∈ first.nodes, node.declaration? = none) ∧ first.EndsClosed ∧
          first.after = " ;".toList :=
    ⟨_, Stylesheet.parse_eq_ok_iff.mpr ⟨_, hread, rfl⟩, by decide +kernel, by decide +kernel, rfl⟩
  obtain ⟨second, hmore, happends⟩ : ∃ second,
      Stylesheet.parse "c:5px;c:0.05em".toList = .ok second ∧
        ¬ converter.AppendsFirst second := by
    refine ⟨_, Stylesheet.parse_eq_ok_iff.mpr ⟨_, hread', rfl⟩, ?_⟩
    rintro ⟨-, decl, rest, hnodes, hleaves⟩
    cases hnodes
    exact hleaves (Or.inr (by decide +kernel))
  obtain ⟨out, out', text, tally, tally', hout, hout', htext, hiff, -⟩ :=
    process_append converter.isExcluded_none hcss hmore hfirst hclosed
  exact ⟨first, second, hcss, hmore, hfirst, hclosed, hafter, happends, out, out', text, tally,
    tally', hout, hout', htext, hiff.mpr (Or.inr happends)⟩

/-- The line break between the two texts is written again in front of the declaration that is
    put in. -/
theorem not_append_of_repeated_blanks :
    let converter := ofOptions { replace := false }
    (∃ first, Stylesheet.parse "a{}\n".toList = .ok first ∧
        (∀ node ∈ first.nodes, node.declaration? = none) ∧ first.EndsClosed) ∧
      (∃ second, Stylesheet.parse "b:5px".toList = .ok second) ∧
      converter.process none "a{}\n".toList = .ok ("a{}\n".toList, {}) ∧
      converter.process none "b:5px".toList =
        .ok ("b:5px;b:0.05em".toList, { tally := { fallbacks := 1 } }) ∧
      ¬ ∃ report, converter.process none ("a{}\n".toList ++ "b:5px".toList) =
        .ok ("a{}\n".toList ++ "b:5px;b:0.05em".toList, report) := by
  intro converter
  have hread : Stylesheet.read "a{}\n".toList = .ok {
      nodes := [.rule { selector := ['a'] } []], after := ['\n'] } := by
    cbv
  have hread' : Stylesheet.read "b:5px".toList = .ok {
      nodes := [.declaration { prop := ['b'], value := "5px".toList, between := [':'] }] } := by
    cbv
  have hboth : Stylesheet.read ("a{}\n".toList ++ "b:5px".toList) = .ok {
      nodes := [
        .rule { selector := ['a'] } [],
        .declaration
          { prop := ['b'], value := "5px".toList, before := ['\n'], between := [':'] }] } := by
    cbv
  refine ⟨⟨_, Stylesheet.parse_eq_ok_iff.mpr ⟨_, hread, rfl⟩, by decide +kernel,
    by decide +kernel⟩, ⟨_, Stylesheet.parse_eq_ok_iff.mpr ⟨_, hread', rfl⟩⟩, ?_, ?_, ?_⟩
  · exact (process_eq_ok_iff converter.isExcluded_none).mpr
      ⟨_, hread, by decide +kernel, by decide +kernel⟩
  · exact (process_eq_ok_iff converter.isExcluded_none).mpr
      ⟨_, hread', by decide +kernel, by decide +kernel⟩
  · rintro ⟨report, hprocess⟩
    obtain ⟨plain, hplain, hprint, -⟩ :=
      (process_eq_ok_iff converter.isExcluded_none).mp hprocess
    cases hboth.symm.trans hplain
    exact absurd hprint (by decide +kernel)

end EmScale.Converter
