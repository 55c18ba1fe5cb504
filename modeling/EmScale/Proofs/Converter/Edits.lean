/-
  EmScale/Proofs/Converter/Edits.lean
  ===================================
  **Converting changes lengths and nothing else.**

  An edit of a text keeps a character or puts something in the place of a part.  Scanning a
  value gives its edits: a length that is converted is changed, and everything else is kept.
  Where values are replaced, the edits of all fragments of a stylesheet lead from its text to
  the text of the converted one, so all that is changed are lengths in values and in preludes
  of media queries (`Converter.exists_edits_of_process`).
-/
import EmScale.Proofs.Converter.Structure
import EmScale.Proofs.Sheet.Fragment

namespace EmScale

inductive Edit where
  | keep (c : Char)
  | change (source result : Text)
deriving DecidableEq, Repr

namespace Edit

/-- What an edit finds. -/
def source : Edit → Text
  | keep c => [c]
  | change source _ => source

/-- What an edit leaves. -/
def result : Edit → Text
  | keep c => [c]
  | change _ result => result

def sourceAll (edits : List Edit) : Text :=
  edits.flatMap source

def resultAll (edits : List Edit) : Text :=
  edits.flatMap result

@[simp] theorem sourceAll_append (a b : List Edit) :
    sourceAll (a ++ b) = sourceAll a ++ sourceAll b :=
  List.flatMap_append

@[simp] theorem resultAll_append (a b : List Edit) :
    resultAll (a ++ b) = resultAll a ++ resultAll b :=
  List.flatMap_append

@[simp] theorem sourceAll_cons (edit : Edit) (rest : List Edit) :
    sourceAll (edit :: rest) = edit.source ++ sourceAll rest := rfl

@[simp] theorem resultAll_cons (edit : Edit) (rest : List Edit) :
    resultAll (edit :: rest) = edit.result ++ resultAll rest := rfl

@[simp] theorem sourceAll_map_keep (t : Text) : sourceAll (t.map keep) = t := by
  induction t with
  | nil => rfl
  | cons c t ih => simp [source, ih]

@[simp] theorem resultAll_map_keep (t : Text) : resultAll (t.map keep) = t := by
  induction t with
  | nil => rfl
  | cons c t ih => simp [result, ih]

theorem change_not_mem_map_keep (source result : Text) (t : Text) :
    change source result ∉ t.map keep := by
  simp

/-- A change behind characters that are kept. -/
theorem of_map_keep_append_eq {t source result : Text} {edits front back : List Edit}
    (h : t.map keep ++ edits = front ++ change source result :: back) :
    ∃ inner, front = t.map keep ++ inner ∧ edits = inner ++ change source result :: back := by
  rcases List.append_eq_append_iff.mp h with ⟨inner, hfront, hedits⟩ | ⟨more, hkept, hrest⟩
  · exact ⟨inner, hfront, hedits⟩
  · rcases more with _ | ⟨edit, more⟩
    · exact ⟨[], by simpa using hkept.symm, by simpa using hrest.symm⟩
    · obtain ⟨rfl, -⟩ := List.cons.inj hrest
      have hmem : change source result ∈ t.map keep := by simp [hkept]
      exact absurd hmem (change_not_mem_map_keep source result t)

end Edit

/-! ### Lengths of a value -/

/-- A length that is written with a unit of the table, marked or not. -/
structure Token.IsListed (units : UnitTable) (marker : Text) (token : Token) : Prop where
  numeral : token.numeral.IsWritten
  unit : token.unit ∈ units
  marker : token.marker = [] ∨ token.marker = marker ∧ marker ≠ []

section Table

variable {units : UnitTable} (hunits : units.IsNamed) {marker : Text}

include hunits

theorem Token.isListed_of_readLength? {t rest : Text} {n : Numeral} {unit : SourceUnit}
    (h : readLength? units t = some (n, unit, rest)) {found : Text}
    (hfound : found = [] ∨ found = marker ∧ marker ≠ []) :
    Token.IsListed units marker ⟨found, n, unit⟩ := by
  obtain ⟨-, hwritten, hunit, -⟩ := (readLength?_eq_some_iff hunits).mp h
  exact ⟨hwritten, UnitTable.mem_of_startOf? hunit, hfound⟩

theorem Token.isListed_of_read? {t lead rest : Text} {token : Token}
    (h : read? units marker t = some (lead, token, rest)) : token.IsListed units marker := by
  unfold read? at h
  split at h
  · rename_i hignored
    cases h
    simp only [readIgnored?] at hignored
    split at hignored
    · rename_i hmarked
      simp only [Option.map_eq_some_iff, Prod.mk.injEq, Prod.exists] at hignored
      obtain ⟨n, unit, behind, hread, -, rfl, -⟩ := hignored
      apply isListed_of_readLength? hunits hread
      right
      refine ⟨rfl, ?_⟩
      rintro rfl
      simp at hmarked
    · cases hignored
  · simp only [Option.map_eq_some_iff, Prod.mk.injEq, Prod.exists] at h
    obtain ⟨n, unit, behind, hread, -, rfl, -⟩ := h
    exact isListed_of_readLength? hunits hread (Or.inl rfl)

/-- **What a scan takes for lengths are lengths.** -/
theorem Value.isListed_of_mem_scanFrom {t : Text} {r : Region} {token : Token}
    (h : .token token ∈ (scanFrom units marker r t).1) : token.IsListed units marker := by
  fun_induction scanFrom units marker r t with
  | case1 r => cases h
  | case2 r c rest lead found behind hfound segments last eq ih =>
    rw [eq] at ih
    simp only [List.mem_append, List.mem_map, List.mem_cons, Segment.token.injEq, reduceCtorEq,
      and_false, exists_false, false_or] at h
    rcases h with rfl | h
    · unfold tokenAt? at hfound
      split at hfound
      · exact Token.isListed_of_read? hunits hfound
      · cases hfound
    · exact ih h
  | case3 r c rest missed segments last eq ih =>
    rw [eq] at ih
    simp only [List.mem_cons, reduceCtorEq, false_or] at h
    exact ih h

end Table

namespace Converter

/-- A length, and what may take its place: a zero, a number in the target unit, or, if there is
    an ignore marker in front of the length, the length without it. -/
inductive ConvertsLength (converter : Converter) : Text → Text → Prop where
  | zero {n : Numeral} {unit : SourceUnit} : n.IsWritten → unit ∈ converter.units →
      ConvertsLength converter (n.print ++ unit.name) ['0']
  | scaled {n m : Numeral} {unit : SourceUnit} : n.IsWritten → unit ∈ converter.units →
      m.IsWritten → m.sign ≠ ['+'] →
        ConvertsLength converter (n.print ++ unit.name) (m.print ++ targetUnit)
  | unmarked {n : Numeral} {unit : SourceUnit} : converter.marker ≠ [] → n.IsWritten →
      unit ∈ converter.units →
        ConvertsLength converter (converter.marker ++ (n.print ++ unit.name))
          (n.print ++ unit.name)

def segmentEdits (converter : Converter) : Segment → List Edit
  | .token token =>
    if converter.convertToken token = token.print then token.print.map .keep
    else [.change token.print (converter.convertToken token)]
  | .other c => [.keep c]

/-- The edits that convert a value. -/
def valueEdits (converter : Converter) (value : Text) : List Edit :=
  (Value.scan converter.units converter.marker value).1.flatMap converter.segmentEdits

variable {converter : Converter}

theorem sourceAll_segmentEdits (segment : Segment) :
    Edit.sourceAll (converter.segmentEdits segment) = segment.print := by
  cases segment with
  | token token =>
    by_cases hsame : converter.convertToken token = token.print
    · rw [segmentEdits, if_pos hsame]
      exact Edit.sourceAll_map_keep _
    · rw [segmentEdits, if_neg hsame]
      exact List.append_nil _
  | other c => rfl

theorem resultAll_segmentEdits (segment : Segment) :
    Edit.resultAll (converter.segmentEdits segment) = converter.convertSegment segment := by
  cases segment with
  | token token =>
    by_cases hsame : converter.convertToken token = token.print
    · rw [segmentEdits, if_pos hsame, Edit.resultAll_map_keep, convertSegment, hsame]
    · rw [segmentEdits, if_neg hsame]
      exact List.append_nil _
  | other c => rfl

theorem sourceAll_valueEdits (value : Text) :
    Edit.sourceAll (converter.valueEdits value) = value := by
  have hsegments : ∀ segments : List Segment,
      Edit.sourceAll (segments.flatMap converter.segmentEdits) =
        segments.flatMap Segment.print := by
    intro segments
    induction segments with
    | nil => rfl
    | cons segment rest ih => simp [sourceAll_segmentEdits, ih]
  rw [valueEdits, hsegments]
  exact Value.print_scan converter.units converter.marker value

theorem resultAll_valueEdits (value : Text) :
    Edit.resultAll (converter.valueEdits value) = converter.convertValue value := by
  have hsegments : ∀ segments : List Segment,
      Edit.resultAll (segments.flatMap converter.segmentEdits) =
        segments.flatMap converter.convertSegment := by
    intro segments
    induction segments with
    | nil => rfl
    | cons segment rest ih => simp [resultAll_segmentEdits, ih]
  exact hsegments _

theorem convertsLength_convertToken {token : Token}
    (h : token.IsListed converter.units converter.marker)
    (hchanged : converter.convertToken token ≠ token.print) :
    converter.ConvertsLength token.print (converter.convertToken token) := by
  unfold convertToken at hchanged ⊢
  rcases h.marker with hmarker | ⟨hmarker, hne⟩
  · have hprint : token.print = token.numeral.print ++ token.unit.name := by
      simp [Token.print, Token.length, hmarker]
    have hignored : token.isIgnored = false := by
      simp [Token.isIgnored, hmarker]
    rw [hignored, if_neg (by simp)] at hchanged ⊢
    split at hchanged
    · exact absurd rfl hchanged
    · rename_i hbelow
      rw [if_neg hbelow]
      rcases hscale : converter.scale? token.numeral.toFloat token.unit.divisor with _ | result
      · rw [hscale] at hchanged
        exact absurd rfl hchanged
      · rw [hprint, Option.getD_some]
        rcases scale?_cases hscale with rfl | ⟨m, hm, hplus, rfl⟩
        · exact .zero h.numeral h.unit
        · exact .scaled h.numeral h.unit hm hplus
  · have hignored : token.isIgnored = true := by
      simp [Token.isIgnored, hmarker, hne]
    rw [hignored, if_pos rfl, Token.print, Token.length, hmarker]
    exact .unmarked hne h.numeral h.unit

/-- **What is changed in a value is a length.** -/
theorem convertsLength_of_mem_valueEdits {value source result : Text}
    (h : .change source result ∈ converter.valueEdits value) :
    converter.ConvertsLength source result := by
  obtain ⟨segment, hsegment, hedit⟩ := List.mem_flatMap.mp h
  cases segment with
  | token token =>
    by_cases hsame : converter.convertToken token = token.print
    · rw [segmentEdits, if_pos hsame] at hedit
      exact absurd hedit (Edit.change_not_mem_map_keep _ _ _)
    · rw [segmentEdits, if_neg hsame] at hedit
      cases List.mem_singleton.mp hedit
      have hlisted := Value.isListed_of_mem_scanFrom converter.isNamed_units hsegment
      exact convertsLength_convertToken hlisted hsame
  | other c =>
    cases List.mem_singleton.mp hedit

/-! ### Edits of fragments -/

/-- The ways of editing a fragment: nothing is changed, or its value or prelude is converted. -/
inductive EditsOne (converter : Converter) : Fragment → List Edit → Prop where
  | kept (fragment : Fragment) : EditsOne converter fragment (fragment.text.map .keep)
  | value (decl : Declaration) :
      EditsOne converter (.declaration decl)
        ((decl.prop ++ decl.between).map .keep ++ converter.valueEdits decl.value)
  | media {head : AtRule} : head.isMedia = true → converter.options.mediaQuery = true →
      EditsOne converter (.prelude head) (converter.valueEdits head.params)

inductive EditsAll (converter : Converter) : List Fragment → List Edit → Prop where
  | nil : EditsAll converter [] []
  | cons {fragment : Fragment} {rest : List Fragment} {edits others : List Edit} :
      EditsOne converter fragment edits → EditsAll converter rest others →
        EditsAll converter (fragment :: rest) (edits ++ others)

theorem EditsOne.sourceAll_eq {fragment : Fragment} {edits : List Edit}
    (h : converter.EditsOne fragment edits) : Edit.sourceAll edits = fragment.text := by
  cases h with
  | kept fragment => exact Edit.sourceAll_map_keep _
  | value decl =>
    rw [Edit.sourceAll_append, Edit.sourceAll_map_keep, sourceAll_valueEdits]
    rfl
  | media hmedia hquery => exact sourceAll_valueEdits _

theorem EditsAll.sourceAll_eq {fragments : List Fragment} {edits : List Edit}
    (h : converter.EditsAll fragments edits) :
    Edit.sourceAll edits = Fragment.textAll fragments := by
  induction h with
  | nil => rfl
  | cons hone _ ih => rw [Edit.sourceAll_append, hone.sourceAll_eq, ih, Fragment.textAll_cons]

theorem EditsAll.append {a b : List Fragment} {edits others : List Edit}
    (ha : converter.EditsAll a edits) (hb : converter.EditsAll b others) :
    converter.EditsAll (a ++ b) (edits ++ others) := by
  induction ha with
  | nil => exact hb
  | cons hone _ ih =>
    rw [List.append_assoc]
    exact .cons hone ih

theorem editsAll_kept (fragments : List Fragment) :
    converter.EditsAll fragments ((Fragment.textAll fragments).map .keep) := by
  induction fragments with
  | nil => exact .nil
  | cons fragment rest ih =>
    rw [Fragment.textAll_cons, List.map_append]
    exact .cons (.kept fragment) ih

/-- The edits of a fragment among others. -/
theorem EditsAll.exists_of_append {fragment : Fragment} {post : List Fragment} :
    ∀ {pre : List Fragment} {edits : List Edit},
      converter.EditsAll (pre ++ fragment :: post) edits →
        ∃ before inner after, edits = before ++ inner ++ after ∧ converter.EditsAll pre before ∧
          converter.EditsOne fragment inner ∧ converter.EditsAll post after
  | [], _, .cons hone hpost => ⟨[], _, _, by simp, .nil, hone, hpost⟩
  | _ :: _, _, .cons hfirst hrest => by
    obtain ⟨before, inner, after, rfl, hpre, hone, hpost⟩ := hrest.exists_of_append
    exact ⟨_ ++ before, inner, after, by simp, .cons hfirst hpre, hone, hpost⟩

/-- The fragment that a change is made in. -/
theorem EditsAll.exists_of_change {fragments : List Fragment} {edits : List Edit}
    (h : converter.EditsAll fragments edits) {source result : Text} :
    ∀ {front back : List Edit}, edits = front ++ .change source result :: back →
      ∃ pre fragment post before inner behind, fragments = pre ++ fragment :: post ∧
        front = before ++ inner ∧ converter.EditsAll pre before ∧
          converter.EditsOne fragment (inner ++ .change source result :: behind) := by
  induction h with
  | nil =>
    intro front back hedits
    simp at hedits
  | @cons fragment rest edits others hone hrest ih =>
    intro front back hedits
    have htail : ∀ inner : List Edit, front = edits ++ inner →
        others = inner ++ .change source result :: back →
          ∃ pre frag post before inner behind, fragment :: rest = pre ++ frag :: post ∧
            front = before ++ inner ∧ converter.EditsAll pre before ∧
              converter.EditsOne frag (inner ++ .change source result :: behind) := by
      intro inner hfront hothers
      obtain ⟨pre, frag, post, before, inner', behind, rfl, rfl, hpre, hfrag⟩ := ih hothers
      exact ⟨fragment :: pre, frag, post, edits ++ before, inner', behind, rfl,
        by rw [hfront, List.append_assoc], .cons hone hpre, hfrag⟩
    rcases List.append_eq_append_iff.mp hedits with ⟨inner, hfront, hothers⟩ | ⟨more, hhead, hmore⟩
    · exact htail inner hfront hothers
    · rcases more with _ | ⟨edit, more⟩
      · exact htail [] (by simpa using hhead.symm) (by simpa using hmore.symm)
      · obtain ⟨rfl, -⟩ := List.cons.inj hmore
        rw [hhead] at hone
        exact ⟨[], fragment, rest, [], front, more, rfl, rfl, .nil, hone⟩

/-! ### Edits of a tree -/

/-- Some way of editing fragments leaves a text. -/
def EditsTo (converter : Converter) (fragments : List Fragment) (t : Text) : Prop :=
  ∃ edits, converter.EditsAll fragments edits ∧ Edit.resultAll edits = t

theorem EditsTo.append {a b : List Fragment} {t u : Text} (ha : converter.EditsTo a t)
    (hb : converter.EditsTo b u) : converter.EditsTo (a ++ b) (t ++ u) := by
  obtain ⟨edits, hedits, rfl⟩ := ha
  obtain ⟨others, hothers, rfl⟩ := hb
  exact ⟨edits ++ others, hedits.append hothers, Edit.resultAll_append edits others⟩

theorem editsTo_kept (fragments : List Fragment) :
    converter.EditsTo fragments (Fragment.textAll fragments) :=
  ⟨_, editsAll_kept fragments, Edit.resultAll_map_keep _⟩

theorem editsTo_fixed (t : Text) : converter.EditsTo [.fixed t] t := by
  have h := @editsTo_kept converter [.fixed t]
  rwa [Fragment.textAll_cons, Fragment.textAll_nil, List.append_nil] at h

theorem EditsOne.editsTo {fragment : Fragment} {edits : List Edit}
    (h : converter.EditsOne fragment edits) :
    converter.EditsTo [fragment] (Edit.resultAll edits) :=
  ⟨edits ++ [], .cons h .nil, by rw [List.append_nil]⟩

theorem editsTo_convertHead (head : AtRule) :
    converter.EditsTo head.fragments (converter.convertHead head).1.print := by
  rcases converter.convertHead_cases head with hhead | ⟨hmedia, hconverts, hhead⟩
  · rw [hhead, ← AtRule.textAll_fragments]
    exact editsTo_kept _
  · have hquery : converter.options.mediaQuery = true := by
      by_contra hquery
      exact hconverts (by rw [convertMedia?, if_neg hquery])
    have hone : converter.EditsOne (.prelude head) _ := .media hmedia hquery
    have hparams := hone.editsTo
    rw [resultAll_valueEdits] at hparams
    have hname := @editsTo_fixed converter ('@' :: (head.name ++ head.afterName))
    have hall := hname.append (hparams.append (editsTo_fixed head.raws.between))
    rw [hhead]
    simpa [AtRule.fragments, AtRule.print] using hall

theorem editsTo_converted (decl : Declaration) :
    converter.EditsTo (Node.declaration decl).fragments
      (Node.declaration (converter.converted decl)).body := by
  have hone : converter.EditsOne (.declaration decl) _ := .value decl
  have hall := hone.editsTo.append (editsTo_fixed decl.after)
  simpa [Node.fragments, Node.body, converted, Declaration.withValue, resultAll_valueEdits]
    using hall

mutual

theorem editsTo_convertNode (hreplace : converter.options.replace = true) :
    ∀ (node : Node) (around : Surroundings) (block : List Node),
      ∃ made, (converter.convertNode around block node).1 = [made] ∧
        made.before = node.before ∧ made.takesSemicolon = node.takesSemicolon ∧
          converter.EditsTo node.fragments made.body
  | .rule head children, around, block => by
    have hchildren :=
      editsTo_convertAll hreplace head.raws.semicolon children (around.insideRule head) []
    have hall := (editsTo_fixed (head.selector ++ head.raws.between ++ ['{'])).append
      (hchildren.append (editsTo_fixed (head.raws.after ++ ['}'])))
    refine ⟨_, rfl, rfl, rfl, ?_⟩
    simpa [Node.fragments, Node.body] using hall
  | .atBlock head children, around, block => by
    have hchildren :=
      editsTo_convertAll hreplace head.raws.semicolon children (around.insideAtRule head) []
    have hall := (@editsTo_convertHead converter head).append
      ((editsTo_fixed ['{']).append
        (hchildren.append (editsTo_fixed (head.raws.after ++ ['}']))))
    rw [convertNode_atBlock]
    refine ⟨.atBlock (converter.convertHead head).1 _, rfl, ?_, rfl, ?_⟩
    · rw [Node.before, raws_convertHead, Node.before]
    · rw [Node.body, raws_convertHead]
      simpa [Node.fragments] using hall
  | .atLine head, around, block => by
    rw [convertNode_atLine]
    refine ⟨.atLine (converter.convertHead head).1, rfl, ?_, rfl, editsTo_convertHead head⟩
    rw [Node.before, raws_convertHead, Node.before]
  | .declaration decl, around, block => by
    rcases converter.convertNode_declaration_cases around block decl with
      hkept | hconverted | ⟨happend, -, -⟩
    · refine ⟨_, hkept, rfl, rfl, ?_⟩
      rw [← Node.textAll_fragments]
      exact editsTo_kept _
    · exact ⟨_, hconverted, rfl, rfl, editsTo_converted decl⟩
    · rw [hreplace] at happend
      cases happend
  | .comment note, around, block => by
    refine ⟨_, rfl, rfl, rfl, ?_⟩
    rw [← Node.textAll_fragments]
    exact editsTo_kept _

theorem editsTo_convertAll (hreplace : converter.options.replace = true) (semicolon : Bool) :
    ∀ (nodes : List Node) (around : Surroundings) (done : List Node),
      converter.EditsTo (Node.fragmentsAll semicolon nodes)
        (Node.printAll semicolon (converter.convertAll around done nodes).1)
  | [], around, done => editsTo_kept []
  | node :: rest, around, done => by
    obtain ⟨made, hmade, hbefore, htakes, hnode⟩ :=
      editsTo_convertNode hreplace node around (done ++ node :: rest)
    have hrest := editsTo_convertAll hreplace semicolon rest around (done ++ [made])
    have hcloser : made.closer semicolon (converter.convertAll around (done ++ [made]) rest).1 =
        node.closer semicolon rest := by
      have hempty : (converter.convertAll around (done ++ [made]) rest).1.isEmpty =
          rest.isEmpty := by
        cases rest with
        | nil => rfl
        | cons next rest =>
          simpa using converter.convertAll_ne_nil around (done ++ [made]) next rest
      rw [Node.closer, Node.closer, Node.isClosed, Node.isClosed, htakes, hempty]
    have hall := (editsTo_fixed node.before).append
      (hnode.append ((editsTo_fixed (node.closer semicolon rest)).append hrest))
    rw [convertAll_cons]
    dsimp only
    rw [hmade, List.singleton_append, Node.printAll, hbefore, hcloser]
    simpa [Node.fragmentsAll] using hall

end

theorem editsTo_transform (hreplace : converter.options.replace = true) (path : Option Text)
    (sheet : Stylesheet) :
    converter.EditsTo sheet.fragments (converter.transform path sheet).1.print := by
  by_cases hpath : converter.isExcluded path = true
  · rw [transform, if_pos hpath, ← Stylesheet.textAll_fragments]
    exact editsTo_kept _
  · rw [transform_eq (by simpa using hpath)]
    exact (editsTo_convertAll hreplace sheet.semicolon sheet.nodes {} []).append
      (editsTo_fixed sheet.after)

theorem textAll_fragments_of_parse {css : Text} {sheet : Stylesheet}
    (h : Stylesheet.parse css = .ok sheet) : Fragment.textAll sheet.fragments = css := by
  obtain ⟨plain, hread, rfl⟩ := Stylesheet.parse_eq_ok_iff.mp h
  rw [Stylesheet.textAll_fragments, Stylesheet.print_eq_of_erase_eq plain.erase_locate]
  exact (Stylesheet.read_eq_ok_iff.mp hread).1

theorem editsTo_of_process (hreplace : converter.options.replace = true) {path : Option Text}
    {css out : Text} {sheet : Stylesheet} {report : Report}
    (hparse : Stylesheet.parse css = .ok sheet)
    (hprocess : converter.process path css = .ok (out, report)) :
    converter.EditsTo sheet.fragments out := by
  by_cases hpath : converter.isExcluded path = true
  · rw [process, if_pos hpath] at hprocess
    cases hprocess
    have hkept := @editsTo_kept converter sheet.fragments
    rwa [textAll_fragments_of_parse hparse] at hkept
  · rw [process, if_neg hpath, hparse] at hprocess
    cases hprocess
    exact editsTo_transform hreplace path sheet

/-! ### Places of changes -/

/-- A place in the text of a stylesheet with `front` in front of it where a part is converted:
    in the value of a declaration, or in the prelude of a media query if that is asked for. -/
inductive Reaches (converter : Converter) (sheet : Stylesheet) : Text → Text → Prop where
  | value {pre post : List Fragment} {decl : Declaration} {left part right : Text} :
      sheet.fragments = pre ++ .declaration decl :: post → decl.value = left ++ part ++ right →
        Reaches converter sheet
          (Fragment.textAll pre ++ (decl.prop ++ decl.between ++ left)) part
  | media {pre post : List Fragment} {head : AtRule} {left part right : Text} :
      sheet.fragments = pre ++ .prelude head :: post → head.isMedia = true →
        converter.options.mediaQuery = true → head.params = left ++ part ++ right →
          Reaches converter sheet (Fragment.textAll pre ++ left) part

theorem valueEdits_eq_append {value source result : Text} {inner behind : List Edit}
    (h : converter.valueEdits value = inner ++ .change source result :: behind) :
    converter.ConvertsLength source result ∧
      value = Edit.sourceAll inner ++ source ++ Edit.sourceAll behind := by
  constructor
  · have hmem : .change source result ∈ converter.valueEdits value := by simp [h]
    exact convertsLength_of_mem_valueEdits hmem
  · have hsource := @sourceAll_valueEdits converter value
    rw [h] at hsource
    simpa [Edit.source] using hsource.symm

/-- **A change is made to a length, and where lengths are converted.** -/
theorem EditsAll.reaches {sheet : Stylesheet} {edits front back : List Edit}
    {source result : Text} (h : converter.EditsAll sheet.fragments edits)
    (hedits : edits = front ++ .change source result :: back) :
    converter.ConvertsLength source result ∧
      converter.Reaches sheet (Edit.sourceAll front) source := by
  obtain ⟨pre, fragment, post, before, inner, behind, hsheet, rfl, hpre, hone⟩ :=
    h.exists_of_change hedits
  rw [Edit.sourceAll_append, hpre.sourceAll_eq]
  generalize hchange : inner ++ .change source result :: behind = changed at hone
  cases hone with
  | kept fragment =>
    have hmem : .change source result ∈ fragment.text.map Edit.keep := by simp [← hchange]
    exact absurd hmem (Edit.change_not_mem_map_keep _ _ _)
  | value decl =>
    obtain ⟨rest, rfl, hvalue⟩ := Edit.of_map_keep_append_eq hchange.symm
    obtain ⟨hlength, hparts⟩ := valueEdits_eq_append hvalue
    rw [Edit.sourceAll_append, Edit.sourceAll_map_keep]
    exact ⟨hlength, .value hsheet hparts⟩
  | media hmedia hquery =>
    obtain ⟨hlength, hparts⟩ := valueEdits_eq_append hchange.symm
    exact ⟨hlength, .media hsheet hmedia hquery hparts⟩

/-- **Only lengths are changed.**  The converted text is the text with some parts changed, each
    of them a length in a value or in the prelude of a media query. -/
theorem exists_edits_of_process (hreplace : converter.options.replace = true)
    {path : Option Text} {css out : Text} {report : Report}
    (h : converter.process path css = .ok (out, report)) :
    ∃ edits, Edit.sourceAll edits = css ∧ Edit.resultAll edits = out ∧
      ∀ front source result back, edits = front ++ .change source result :: back →
        converter.ConvertsLength source result ∧
          ∃ sheet, Stylesheet.parse css = .ok sheet ∧
            converter.Reaches sheet (Edit.sourceAll front) source := by
  rcases hparse : Stylesheet.parse css with error | sheet
  · -- A text that cannot be read is passed through or not processed at all.
    by_cases hpath : converter.isExcluded path = true
    · rw [process, if_pos hpath] at h
      cases h
      refine ⟨css.map .keep, Edit.sourceAll_map_keep css, Edit.resultAll_map_keep css, ?_⟩
      intro front source result back hedits
      have hmem : .change source result ∈ css.map Edit.keep := by simp [hedits]
      exact absurd hmem (Edit.change_not_mem_map_keep _ _ _)
    · rw [process, if_neg hpath, hparse] at h
      cases h
  · obtain ⟨edits, hall, hresult⟩ := editsTo_of_process hreplace hparse h
    refine ⟨edits, ?_, hresult, ?_⟩
    · rw [hall.sourceAll_eq, textAll_fragments_of_parse hparse]
    · intro front source result back hedits
      obtain ⟨hlength, hreaches⟩ := hall.reaches hedits
      exact ⟨hlength, sheet, rfl, hreaches⟩

/-- A length in a media query, one in a value, and a marked one. -/
theorem exists_edits_of_process_marked :
    let converter := ofOptions { mediaQuery := true, ignoreIdentifier := some ['0', '0'] }
    ∃ report, converter.process none "@media (a:5px)\x7bb\x7bc:-5px 005px\x7d\x7d".toList =
        .ok ("@media (a:0.05em)\x7bb\x7bc:-0.05em 5px\x7d\x7d".toList, report) ∧
      ∃ edits, Edit.sourceAll edits = "@media (a:5px)\x7bb\x7bc:-5px 005px\x7d\x7d".toList ∧
        Edit.resultAll edits = "@media (a:0.05em)\x7bb\x7bc:-0.05em 5px\x7d\x7d".toList ∧
          ∀ front source result back, edits = front ++ .change source result :: back →
            converter.ConvertsLength source result ∧
              ∃ sheet, Stylesheet.parse
                  "@media (a:5px)\x7bb\x7bc:-5px 005px\x7d\x7d".toList = .ok sheet ∧
                converter.Reaches sheet (Edit.sourceAll front) source := by
  intro converter
  have hread : Stylesheet.read "@media (a:5px)\x7bb\x7bc:-5px 005px\x7d\x7d".toList = .ok {
      nodes := [.atBlock { name := "media".toList, params := "(a:5px)".toList, afterName := [' '] }
        [.rule { selector := ['b'] }
          [.declaration { prop := ['c'], value := "-5px 005px".toList, between := [':'] }]]] } := by
    cbv
  have hprocess := (process_eq_ok_iff converter.isExcluded_none).mpr ⟨_, hread,
    (by decide +kernel : _ = "@media (a:0.05em)\x7bb\x7bc:-0.05em 5px\x7d\x7d".toList), rfl⟩
  exact ⟨_, hprocess, exists_edits_of_process rfl hprocess⟩

end Converter

end EmScale
