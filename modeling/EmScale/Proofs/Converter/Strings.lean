/-
  EmScale/Proofs/Converter/Strings.lean
  =====================================
  **Which strings are copied.**

  Both the scan of statements and the scan of values know quotes and backslashes, and keep
  track of them in the same way (`Quoting`).  They differ in two things: comments are known to
  the scan of statements alone, and the scan of a value starts behind the colon, whatever is
  open there.  So a quoted string of a declaration is copied if no quote and no backslash
  stands in a comment in front of it and the colon stands in no string
  (`Converter.exists_edits_keeping_strings`).
-/
import EmScale.Proofs.Converter.Edits
import EmScale.Proofs.Sheet.Shape

namespace EmScale

/-! ### Strings of a statement -/

namespace Lexis

/-- Whether a text leads from within a string to the end of the string, and not beyond. -/
def closesString (s : Lexis) : Text → Bool
  | [] => !s.inString
  | c :: t => s.inString && (s.step c).closesString t

/-- Whether a text is one quoted string for the scan of statements. -/
def skipsString (s : Lexis) : Text → Bool
  | [] => false
  | quote :: body =>
    s.isOutside && (quote == '\'' || quote == '"') && (s.step quote).closesString body

/-- Whether no quote and no backslash stands in a comment of a text. -/
def hasPlainComments (s : Lexis) : Text → Bool
  | [] => true
  | c :: t =>
    !(s.inComment && (c == '\'' || c == '"' || c == '\\')) && (s.step c).hasPlainComments t

end Lexis

/-! ### Quotes and backslashes -/

/-- What quotes and backslashes have opened, for someone who knows nothing else. -/
inductive Quoting where
  | free
  | escape
  | quoted (quote : Char)
  | quotedEscape (quote : Char)
deriving DecidableEq, Repr

namespace Quoting

def step (q : Quoting) (c : Char) : Quoting :=
  match q with
  | free => if c = '\'' ∨ c = '"' then quoted c else if c = '\\' then escape else free
  | escape => free
  | quoted quote =>
    if c = '\\' then quotedEscape quote else if c = quote then free else quoted quote
  | quotedEscape quote => quoted quote

def run (q : Quoting) (t : Text) : Quoting :=
  t.foldl step q

@[simp] theorem run_nil (q : Quoting) : q.run [] = q := rfl

@[simp] theorem run_cons (q : Quoting) (c : Char) (t : Text) :
    q.run (c :: t) = (q.step c).run t := rfl

@[simp] theorem run_append (q : Quoting) (a b : Text) : q.run (a ++ b) = (q.run a).run b :=
  List.foldl_append

theorem step_free {c : Char} (hsingle : c ≠ '\'') (hdouble : c ≠ '"') (hslash : c ≠ '\\') :
    free.step c = free := by
  simp [step, hsingle, hdouble, hslash]

theorem run_free_of_isLengthLike {t : Text} (h : t.IsLengthLike) : free.run t = free := by
  obtain ⟨-, hcharacters⟩ := h
  induction t with
  | nil => rfl
  | cons c t ih =>
    have hc := hcharacters c (by simp)
    have hsingle : c ≠ '\'' := by rintro rfl; cases hc
    have hdouble : c ≠ '"' := by rintro rfl; cases hc
    have hslash : c ≠ '\\' := by rintro rfl; cases hc
    rw [run_cons, step_free hsingle hdouble hslash]
    apply ih
    intro d hd
    exact hcharacters d (by simp [hd])

end Quoting

def Mode.quoting : Mode → Quoting
  | .plain | .slash | .comment | .commentStar => .free
  | .escape => .escape
  | .quoted quote => .quoted quote
  | .quotedEscape quote => .quotedEscape quote

def Region.quoting : Region → Quoting
  | .free _ | .url none => .free
  | .escape | .urlEscape none => .escape
  | .quoted quote | .url (some quote) => .quoted quote
  | .quotedEscape quote | .urlEscape (some quote) => .quotedEscape quote

/-! ### The scan of statements -/

namespace Lexis

theorem quoting_stepPlain (depth : Nat) (c : Char) :
    (stepPlain depth c).mode.quoting = Quoting.free.step c := by
  by_cases hsingle : c = '\''
  · subst hsingle
    rfl
  by_cases hdouble : c = '"'
  · subst hdouble
    rfl
  by_cases hslash : c = '\\'
  · subst hslash
    rfl
  have hquote : ¬ (c = '"' ∨ c = '\'') := by simp [hsingle, hdouble]
  rw [Quoting.step_free hsingle hdouble hslash, stepPlain, if_neg hquote]
  repeat' split
  all_goals rfl

/-- **The scan of statements keeps track of quotes** outside of comments, and in comments as
    long as there is none. -/
theorem quoting_step {s : Lexis} {c : Char}
    (h : s.inComment = true → c ≠ '\'' ∧ c ≠ '"' ∧ c ≠ '\\') :
    (s.step c).mode.quoting = s.mode.quoting.step c := by
  rcases s with ⟨mode, depth⟩
  cases mode with
  | plain => exact quoting_stepPlain depth c
  | slash =>
    by_cases hstar : c = '*'
    · subst hstar
      rfl
    · rw [step]
      dsimp only
      rw [if_neg hstar]
      exact quoting_stepPlain depth c
  | escape => rfl
  | quoted quote =>
    by_cases hslash : c = '\\'
    · subst hslash
      rfl
    by_cases hquote : c = quote
    · subst hquote
      simp [step, Quoting.step, Mode.quoting, hslash]
    · simp [step, Quoting.step, Mode.quoting, hslash, hquote]
  | quotedEscape quote => rfl
  | comment | commentStar =>
    obtain ⟨hsingle, hdouble, hslash⟩ := h rfl
    refine Eq.trans ?_ (Quoting.step_free hsingle hdouble hslash).symm
    rw [step]
    dsimp only
    repeat' split
    all_goals rfl

theorem quoting_step_of_not_inComment {s : Lexis} (h : s.inComment = false) (c : Char) :
    (s.step c).mode.quoting = s.mode.quoting.step c := by
  apply quoting_step
  intro hcomment
  rw [h] at hcomment
  cases hcomment

theorem quoting_run {s : Lexis} {t : Text} (h : s.hasPlainComments t = true) :
    (s.run t).mode.quoting = s.mode.quoting.run t := by
  induction t generalizing s with
  | nil => rfl
  | cons c t ih =>
    rw [hasPlainComments, Bool.and_eq_true] at h
    obtain ⟨hc, ht⟩ := h
    have hplain : s.inComment = true → c ≠ '\'' ∧ c ≠ '"' ∧ c ≠ '\\' := by
      intro hcomment
      simpa [hcomment, not_or, and_assoc] using hc
    rw [run_cons, ih ht, quoting_step hplain]
    rfl

theorem quoting_ne_free_of_inString {s : Lexis} (h : s.inString = true) :
    s.mode.quoting ≠ .free := by
  rcases s with ⟨mode, depth⟩
  cases mode with
  | quoted quote => exact nofun
  | quotedEscape quote => exact nofun
  | _ => cases h

theorem inComment_of_inString {s : Lexis} (h : s.inString = true) : s.inComment = false := by
  rcases s with ⟨mode, depth⟩
  cases mode with
  | quoted quote => rfl
  | quotedEscape quote => rfl
  | _ => cases h

theorem inComment_of_isOutside {s : Lexis} (h : s.isOutside = true) : s.inComment = false := by
  rcases mode_of_isOutside h with hmode | hmode <;> simp [inComment, hmode]

theorem exists_of_skipsString {s : Lexis} {string : Text} (h : s.skipsString string = true) :
    ∃ quote body, string = quote :: body ∧ s.isOutside = true ∧
      (quote = '\'' ∨ quote = '"') ∧ (s.step quote).closesString body = true := by
  rcases string with _ | ⟨quote, body⟩
  · cases h
  · simp only [skipsString, Bool.and_eq_true, Bool.or_eq_true, beq_iff_eq] at h
    exact ⟨quote, body, rfl, h.1.1, h.1.2, h.2⟩

theorem quoting_of_isOutside {s : Lexis} (h : s.isOutside = true) : s.mode.quoting = .free := by
  rcases mode_of_isOutside h with hmode | hmode <;> rw [hmode] <;> rfl

/-- Behind a colon and blanks nothing but a string or a comment is open. -/
theorem quoting_run_of_isSeparator {s : Lexis} (hs : s.IsProper) {between : Text}
    (hbetween : between.IsSeparator) (h : (s.run between).inString = false) :
    (s.run between).mode.quoting = .free := by
  obtain ⟨left, right, rfl, -, hright⟩ := hbetween
  have hinert : ∀ c ∈ ':' :: right, isInert c = true := by
    rw [List.forall_mem_cons]
    exact ⟨by decide, isInert_of_isBlank hright⟩
  rw [run_append, run_of_isInert (hs.run left) (List.cons_ne_nil _ _) hinert] at h ⊢
  cases hmode : (s.run left).mode <;> rw [hmode] at h <;> first | rfl | cases h

end Lexis

/-! ### The scan of values -/

namespace Region

/-- **The scan of values keeps track of quotes.** -/
theorem quoting_step (r : Region) (c : Char) : (r.step c).quoting = r.quoting.step c := by
  cases r with
  | free word =>
    rw [step, apply_ite quoting, apply_ite quoting, apply_ite quoting]
    simp only [quoting, Quoting.step, ite_self]
  | escape => rfl
  | quoted quote =>
    rw [step, apply_ite quoting, apply_ite quoting]
    rfl
  | quotedEscape quote => rfl
  | url quote =>
    cases quote with
    | none =>
      by_cases hslash : c = '\\'
      · subst hslash
        rfl
      · rw [step, if_neg hslash, apply_ite quoting, apply_ite quoting]
        simp only [quoting, Quoting.step, if_neg hslash, ite_self]
    | some quote =>
      rw [step, apply_ite quoting, apply_ite quoting]
      rfl
  | urlEscape quote => cases quote <;> rfl

theorem not_isEdge_of_quoting {r : Region} (h : r.quoting ≠ .free) : r.isEdge = false := by
  by_contra hedge
  have hstart : r = free .edge := eq_of_isEdge (by simpa using hedge)
  rw [hstart] at h
  exact h rfl

end Region

namespace Value

variable {units : UnitTable}

/-- A length opens nothing, so quotes are kept track of along a scan. -/
theorem quoting_scanFrom (hunits : units.IsNamed) (r : Region) (t : Text) :
    (scanFrom units [] r t).2.quoting = r.quoting.run t := by
  induction r, t using scan_induction units with
  | nil r => simp [scanFrom]
  | token r n unit rest hedge hread ih =>
    obtain ⟨-, hwritten, hunit, -⟩ := (Token.readLength?_eq_some_iff hunits).mp hread
    obtain ⟨hne, hletters⟩ :=
      isUnitName_iff.mp (hunits unit (UnitTable.mem_of_startOf? hunit))
    have hlength : Quoting.free.run (n.print ++ unit.name) = .free :=
      Quoting.run_free_of_isLengthLike (hwritten.isLengthLike_append hne hletters)
    have hstart : r.quoting = .free := by
      rw [Region.eq_of_isEdge hedge]
      rfl
    rw [scanFrom_token hedge hread, ih, Quoting.run_append, hstart, hlength]
    rfl
  | other r c t hread ih =>
    rw [scanFrom_other hread, ih, Region.quoting_step]
    rfl

/-- **No length is looked for in a string** up to its end. -/
theorem hides_of_closesString {s : Lexis} {r : Region} (hquoting : s.mode.quoting = r.quoting)
    {body : Text} (h : s.closesString body = true) : r.Hides body := by
  induction body generalizing s r with
  | nil => trivial
  | cons c body ih =>
    rw [Lexis.closesString, Bool.and_eq_true] at h
    obtain ⟨hstring, hbody⟩ := h
    have hedge : r.isEdge = false := by
      apply Region.not_isEdge_of_quoting
      rw [← hquoting]
      exact Lexis.quoting_ne_free_of_inString hstring
    have hcomment := Lexis.inComment_of_inString hstring
    have hstep : (s.step c).mode.quoting = (r.step c).quoting := by
      rw [Lexis.quoting_step_of_not_inComment hcomment, Region.quoting_step, hquoting]
    exact ⟨hedge, ih hstep hbody⟩

/-- **A string is scanned without a length**, if no string is open in front of it. -/
theorem exists_scanFrom_of_skipsString (hunits : units.IsNamed) {s : Lexis} {r : Region}
    (hfree : r.quoting = .free) {string : Text} (h : s.skipsString string = true)
    (rest : Text) :
    ∃ behind, (scanFrom units [] r (string ++ rest)).1 = string.map .other ++ behind := by
  obtain ⟨quote, body, rfl, houtside, hquote, hbody⟩ := Lexis.exists_of_skipsString h
  have hword : continuesWord quote = false ∧ quote ≠ '+' := by
    rcases hquote with rfl | rfl <;> decide
  have hcomment := Lexis.inComment_of_isOutside houtside
  have hstep : (s.step quote).mode.quoting = (r.step quote).quoting := by
    rw [Lexis.quoting_step_of_not_inComment hcomment, Region.quoting_step, hfree,
      Lexis.quoting_of_isOutside houtside]
  have hhides := hides_of_closesString hstep hbody
  have hnone : r.isEdge = true → Token.readLength? units (quote :: (body ++ rest)) = none := by
    intro _
    exact Token.readLength?_cons_eq_none hunits _ hword.2 hword.1
  refine ⟨(scanFrom units [] ((r.step quote).run body) rest).1, ?_⟩
  rw [List.cons_append, scanFrom_other hnone, scanFrom_hidden hhides]
  rfl

end Value

/-! ### Strings of a declaration -/

/-- The colon of a declaration stands in no string, and no quote and no backslash stands in a
    comment of the part `x` of its value. -/
structure Declaration.IsPlainUpTo (decl : Declaration) (x : Text) : Prop where
  colon : (Lexis.run {} (decl.prop ++ decl.between)).inString = false
  comments : (Lexis.run {} (decl.prop ++ decl.between)).hasPlainComments x = true

/-- Up to such a place both scans have opened the same strings. -/
theorem Declaration.IsPlainUpTo.quoting_run {decl : Declaration} {x : Text}
    (h : decl.IsPlainUpTo x) (hbetween : decl.between.IsSeparator) :
    (Lexis.run {} (decl.prop ++ decl.between ++ x)).mode.quoting = Quoting.free.run x := by
  have hcolon := h.colon
  rw [Lexis.run_append] at hcolon
  have hfree := Lexis.quoting_run_of_isSeparator (Lexis.isProper_start.run decl.prop) hbetween
    hcolon
  rw [Lexis.run_append, Lexis.quoting_run h.comments, Lexis.run_append, hfree]

namespace Converter

variable {converter : Converter}

theorem exists_valueEdits_of_skipsString (hmarker : converter.marker = []) {x string : Text}
    (hfree : Quoting.free.run x = .free) {s : Lexis} (h : s.skipsString string = true)
    (rest : Text) :
    ∃ after, converter.valueEdits (x ++ (string ++ rest)) =
      converter.valueEdits x ++ string.map .keep ++ after := by
  have hunits := converter.isNamed_units
  have hquote : Text.StartsOff continuesWord (string ++ rest) := by
    obtain ⟨quote, body, rfl, -, hquote, -⟩ := Lexis.exists_of_skipsString h
    apply Text.startsOff_cons.mpr
    rcases hquote with rfl | rfl <;> decide
  have hscan := Value.scanFrom_append hunits .start x hquote
  have hregion : (Value.scanFrom converter.units [] .start x).2.quoting = .free := by
    rw [Value.quoting_scanFrom hunits]
    exact hfree
  obtain ⟨behind, hbehind⟩ := Value.exists_scanFrom_of_skipsString hunits hregion h rest
  have hcopied : (string.map Segment.other).flatMap converter.segmentEdits =
      string.map .keep := by
    rw [List.flatMap_map]
    exact List.flatMap_pure_eq_map _ _
  refine ⟨behind.flatMap converter.segmentEdits, ?_⟩
  unfold valueEdits Value.scan
  rw [hmarker, hscan]
  dsimp only
  rw [hbehind, List.flatMap_append, List.flatMap_append, hcopied, List.append_assoc]

/-- **A string of a declaration is kept** if it stands in front of the value, or if the
    declaration is plain up to it. -/
theorem EditsOne.keeps_string (hmarker : converter.marker = []) {decl : Declaration}
    (hbetween : decl.between.IsSeparator) {edits : List Edit}
    (h : converter.EditsOne (.declaration decl) edits) {front string back : Text}
    (htext : decl.text = front ++ string ++ back)
    (hstring : (Lexis.run {} front).skipsString string = true)
    (hplace : front ++ string <+: decl.prop ++ decl.between ∨
      ∃ x, front = decl.prop ++ decl.between ++ x ∧ decl.IsPlainUpTo x) :
    ∃ before after, edits = before ++ string.map .keep ++ after ∧
      Edit.sourceAll before = front := by
  cases h with
  | kept =>
    refine ⟨front.map .keep, back.map .keep, ?_, Edit.sourceAll_map_keep front⟩
    rw [Fragment.text, htext, List.map_append, List.map_append]
  | value =>
    rcases hplace with ⟨more, hmore⟩ | ⟨x, rfl, hplain⟩
    · refine ⟨front.map .keep, more.map .keep ++ converter.valueEdits decl.value, ?_,
        Edit.sourceAll_map_keep front⟩
      rw [← hmore]
      simp
    · have hvalue : decl.value = x ++ (string ++ back) := by
        simpa [Declaration.text] using htext
      obtain ⟨-, -, -, houtside, -, -⟩ := Lexis.exists_of_skipsString hstring
      have hfree : Quoting.free.run x = .free := by
        rw [← hplain.quoting_run hbetween]
        exact Lexis.quoting_of_isOutside houtside
      obtain ⟨after, hafter⟩ := exists_valueEdits_of_skipsString hmarker hfree hstring back
      refine ⟨(decl.prop ++ decl.between).map .keep ++ converter.valueEdits x, after, ?_, ?_⟩
      · rw [hvalue, hafter]
        simp
      · rw [Edit.sourceAll_append, Edit.sourceAll_map_keep, sourceAll_valueEdits]

/-- **Quoted strings are copied.**  Only lengths are changed in the text of a stylesheet, and a
    string of a declaration is kept in its place if it ends in front of the value, or if the
    declaration is plain up to it. -/
theorem exists_edits_keeping_strings (hreplace : converter.options.replace = true)
    (hmarker : converter.marker = []) {path : Option Text} {css out : Text}
    {sheet : Stylesheet} {report : Report} (hparse : Stylesheet.parse css = .ok sheet)
    (hprocess : converter.process path css = .ok (out, report)) :
    ∃ edits, Edit.sourceAll edits = css ∧ Edit.resultAll edits = out ∧
      (∀ source result, .change source result ∈ edits → converter.ConvertsLength source result) ∧
      ∀ pre decl post front string back, sheet.fragments = pre ++ .declaration decl :: post →
        decl.text = front ++ string ++ back →
          (Lexis.run {} front).skipsString string = true →
            (front ++ string <+: decl.prop ++ decl.between ∨
                ∃ x, front = decl.prop ++ decl.between ++ x ∧ decl.IsPlainUpTo x) →
              ∃ before after, edits = before ++ string.map .keep ++ after ∧
                Edit.sourceAll before = Fragment.textAll pre ++ front := by
  obtain ⟨edits, hedits, hresult⟩ := editsTo_of_process hreplace hparse hprocess
  refine ⟨edits, ?_, hresult, ?_, ?_⟩
  · rw [hedits.sourceAll_eq, textAll_fragments_of_parse hparse]
  · intro source result hchange
    obtain ⟨front, back, hsplit⟩ := List.append_of_mem hchange
    exact (hedits.reaches hsplit).1
  · intro pre decl post front string back hsheet htext hstring hplace
    have hmem : .declaration decl ∈ sheet.fragments := by simp [hsheet]
    have hshape := (Stylesheet.hasShape_of_reads (Stylesheet.reads_of_parse hparse)).1.nodes _
      (Stylesheet.declaration_mem_fragments_iff.mp hmem)
    rw [hsheet] at hedits
    obtain ⟨before, inner, after, rfl, hpre, hone, -⟩ := hedits.exists_of_append
    obtain ⟨left, right, rfl, hleft⟩ :=
      hone.keeps_string hmarker hshape.between htext hstring hplace
    refine ⟨before ++ left, right ++ after, by simp, ?_⟩
    rw [Edit.sourceAll_append, hpre.sourceAll_eq, hleft]

/-- A string in a property, and one with an escaped quote behind a comment. -/
theorem exists_edits_keeping_strings_escaped :
    let converter := ofOptions {}
    ∃ sheet report, Stylesheet.parse "'2px':/*1px*/'\\'3px' 4px".toList = .ok sheet ∧
      converter.process none "'2px':/*1px*/'\\'3px' 4px".toList =
        .ok ("'2px':/*0.01em*/'\\'3px' 0.04em".toList, report) ∧
      ∃ edits before after, Edit.sourceAll edits = "'2px':/*1px*/'\\'3px' 4px".toList ∧
        Edit.resultAll edits = "'2px':/*0.01em*/'\\'3px' 0.04em".toList ∧
          edits = before ++ "'\\'3px'".toList.map .keep ++ after ∧
            Edit.sourceAll before = "'2px':/*1px*/".toList := by
  intro converter
  have hread : Stylesheet.read "'2px':/*1px*/'\\'3px' 4px".toList = .ok {
      nodes := [.declaration
        { prop := "'2px'".toList, value := "/*1px*/'\\'3px' 4px".toList, between := [':'] }] } := by
    cbv
  have hparse := Stylesheet.parse_eq_ok_iff.mpr ⟨_, hread, rfl⟩
  have hprocess := (process_eq_ok_iff converter.isExcluded_none).mpr ⟨_, hread,
    (by decide +kernel : _ = "'2px':/*0.01em*/'\\'3px' 0.04em".toList), rfl⟩
  obtain ⟨edits, hsource, hresult, -, hkept⟩ :=
    exists_edits_keeping_strings rfl rfl hparse hprocess
  obtain ⟨before, after, hedits, hbefore⟩ := hkept [.fixed []] _ _ "'2px':/*1px*/".toList
    "'\\'3px'".toList " 4px".toList rfl rfl (by decide +kernel)
    (Or.inr ⟨"/*1px*/".toList, rfl, by decide +kernel, by decide +kernel⟩)
  exact ⟨_, _, hparse, hprocess, edits, before, after, hsource, hresult, hedits, hbefore⟩

/-- A quote in a comment opens a string for the scan of values alone, and the next string ends
    where it should begin. -/
theorem not_infix_of_quote_in_comment :
    let converter := ofOptions {}
    (converter.options.replace = true ∧ converter.marker = []) ∧
      ∃ sheet decl front string out report,
        Stylesheet.parse "a:/*'*/'5px'".toList = .ok sheet ∧
          .declaration decl ∈ sheet.allNodes ∧ decl.text = front ++ string ∧
            (Lexis.run {} front).skipsString string = true ∧
              converter.process none "a:/*'*/'5px'".toList = .ok (out, report) ∧
                ¬ string <:+: out := by
  intro converter
  have hread : Stylesheet.read "a:/*'*/'5px'".toList = .ok {
      nodes := [.declaration
        { prop := ['a'], value := "/*'*/'5px'".toList, between := [':'] }] } := by
    cbv
  have hparse := Stylesheet.parse_eq_ok_iff.mpr ⟨_, hread, rfl⟩
  have hprocess := (process_eq_ok_iff converter.isExcluded_none).mpr ⟨_, hread,
    (by decide +kernel : _ = "a:/*'*/'0.05em'".toList), rfl⟩
  exact ⟨⟨rfl, rfl⟩, _, _, "a:/*'*/".toList, "'5px'".toList, _, _, hparse,
    List.mem_singleton.mpr rfl, rfl, by decide +kernel, hprocess, by decide +kernel⟩

end Converter

end EmScale
