/-
  EmScale/Proofs/Converter/Idempotence.lean
  =========================================
  **Converting a second time.**

  The text that a run gives is read as the converted tree, rejoined and reread.  What was
  reread is no media query any more, so a second run has something to do exactly where a
  block runs on (`Converter.process_process`).  Where values are replaced no block does, and
  the second run changes nothing.  Where declarations are put behind others, it changes
  nothing if and only if every block that runs on recovers (`Converter.AllRecover`).
-/
import EmScale.Proofs.Converter.Settled
import EmScale.Proofs.Converter.Structure

namespace EmScale.Converter

variable {converter : Converter}

/-! ### Heads that are reread -/

/-- The head of an at-rule that is left as it is, also if it is reread. -/
def IsQuiet (converter : Converter) (head : AtRule) (trailing : Text) (_ : Option Char) : Prop :=
  (converter.convertHead head).2.IsIdle ∧
    (converter.convertHead (head.reread trailing).1).2.IsIdle

theorem length_name_of_isMedia {head : AtRule} (h : head.isMedia = true) :
    head.name.length = 5 := by
  have hname : head.name.map Char.toLower = "media".toList.map Char.toLower := by
    simpa [AtRule.isMedia, AtRule.isNamed] using h
  simpa using congrArg List.length hname

theorem isIdle_convertHead_of_not_isMedia {head : AtRule} (h : head.isMedia = false) :
    (converter.convertHead head).2.IsIdle := by
  rw [convertHead, if_neg (by simp [h])]
  exact Tally.isIdle_empty

theorem snd_convertHead_withBlanks (head : AtRule) (between after : Text) :
    (converter.convertHead (head.withBlanks between after)).2 = (converter.convertHead head).2 := by
  have h : converter.convertHead (head.withBlanks between after) =
      (_, (converter.convertHead head).2) := convertHead_congr rfl rfl
  rw [h]

/-- **A converted head is left as it is.**  If its name goes on, it is no media query any
    more. -/
theorem isQuiet_convertHead (hmarker : converter.marker = [])
    (htarget : ∀ unit ∈ converter.units, unit.name ≠ targetUnit) {head : AtRule}
    {trailing : Text} {stop : Option Char} (h : head.Reads trailing stop) :
    converter.IsQuiet (converter.convertHead head).1 trailing stop := by
  have hidle := isIdle_convertHead_convertHead hmarker htarget head
  have hstands := stands_convertHead hmarker h
  refine ⟨hidle, ?_⟩
  by_cases hseparated : (converter.convertHead head).1.IsSeparated
  · rw [AtRule.reread_eq_self (AtRule.reads_iff.mpr ⟨hstands, hseparated⟩)]
    exact hidle
  · -- The name takes in at least one character, and `media` is as long as it was.
    have hmedia : head.isMedia = true := by
      rcases converter.convertHead_cases head with hhead | ⟨hmedia, -⟩
      · rw [hhead] at hseparated
        exact absurd h.separated hseparated
      · exact hmedia
    have hlonger := AtRule.length_name_lt_reread hstands hseparated
    rw [length_name_of_isMedia (converter.isMedia_convertHead head ▸ hmedia)] at hlonger
    apply isIdle_convertHead_of_not_isMedia
    by_contra hagain
    rw [length_name_of_isMedia (by simpa using hagain)] at hlonger
    omega

/-! ### Trees that are reread -/

theorem allLeft_rereadAll_iff {around around' : Surroundings}
    (hselector : around.selector = around'.selector) (semicolon : Bool) (after : Text)
    (nodes : List Node) :
    let again := (Node.rereadAll semicolon after nodes).1
    converter.AllLeft around again again ↔ converter.AllLeft around' nodes nodes := by
  apply forall_congr'
  intro decl
  rw [Node.declaration_mem_rereadAll]
  exact imp_congr_right fun _ =>
    Leaves.congr hselector fun prop value => Node.any_declares_rereadAll prop value _ _ _

/-- The children of a block that is reread are left as they are if those of the block are. -/
theorem isIdle_rereadAll_iff_of {around around' : Surroundings}
    (hselector : around.selector = around'.selector) {semicolon : Bool} {after : Text}
    {nodes : List Node}
    (hinside : (∀ node ∈ (Node.rereadAll semicolon after nodes).1,
      converter.IsIdleInside around node) ↔ ∀ node ∈ nodes, converter.IsIdleInside around' node) :
    (converter.convertAll around [] (Node.rereadAll semicolon after nodes).1).2.IsIdle ↔
      (converter.convertAll around' [] nodes).2.IsIdle := by
  rw [isIdle_convertAll_iff_allLeft, isIdle_convertAll_iff_allLeft]
  exact and_congr (allLeft_rereadAll_iff hselector semicolon after nodes) hinside

mutual

theorem isIdleInside_reread_iff {after : Text} {stop : Option Char} :
    ∀ {node : Node} {closed : Bool}, node.Fits converter.IsQuiet after stop closed →
      ∀ {around around' : Surroundings}, around.selector = around'.selector →
        (converter.IsIdleInside around (node.reread closed after).1 ↔
          converter.IsIdleInside around' node)
  | .rule head children, _, ⟨_, hchildren⟩, around, around', _ => by
    have hselector : (around.insideRule head).selector = (around'.insideRule head).selector := rfl
    exact isIdle_rereadAll_iff_of hselector (isIdleInside_rereadAll_iff hchildren hselector)
  | .atBlock head children, _, ⟨⟨hhead, hagain⟩, hchildren⟩, around, around', _ => by
    have hselector : (around.insideAtRule (head.reread head.raws.between).1).selector =
        (around'.insideAtRule head).selector := rfl
    rw [← snd_convertHead_withBlanks] at hagain
    exact and_congr (iff_of_true hagain hhead)
      (isIdle_rereadAll_iff_of hselector (isIdleInside_rereadAll_iff hchildren hselector))
  | .atLine head, true, ⟨_, _, hhead, hagain⟩, _, _, _ => by
    rw [← snd_convertHead_withBlanks] at hagain
    exact iff_of_true hagain hhead
  | .atLine head, false, ⟨_, _, hhead, hagain⟩, _, _, _ =>
    iff_of_true hagain hhead
  | .declaration _, _, _, _, _, _ => Iff.rfl
  | .comment _, _, _, _, _, _ => Iff.rfl

/-- **What is left inside of the nodes of a block stays** when the block is reread. -/
theorem isIdleInside_rereadAll_iff {after : Text} {stop : Option Char} {semicolon : Bool} :
    ∀ {nodes : List Node} {closed : Bool},
      Node.AllFit converter.IsQuiet after stop semicolon closed nodes →
        ∀ {around around' : Surroundings}, around.selector = around'.selector →
          ((∀ node ∈ (Node.rereadAll semicolon after nodes).1, converter.IsIdleInside around node) ↔
            ∀ node ∈ nodes, converter.IsIdleInside around' node)
  | [], _, _, _, _, _ => by simp [Node.rereadAll]
  | [node], _, ⟨hnode, _⟩, around, around', hselector => by
    simp only [Node.rereadAll, List.forall_mem_singleton]
    exact isIdleInside_reread_iff hnode hselector
  | node :: next :: rest, _, ⟨hnode, hrest⟩, around, around', hselector => by
    have hlast : node.takesSemicolon = true → node.isClosed semicolon (next :: rest) = true :=
      Node.isClosed_of_rest (by simp)
    rw [Node.rereadAll, List.forall_mem_cons, List.forall_mem_cons, Node.snd_reread hlast,
      isIdleInside_reread_iff hnode hselector, isIdleInside_rereadAll_iff hrest hselector]

end

/-! ### Second runs -/

/-- Every block of a stylesheet that runs on recovers. -/
def AllRecover (converter : Converter) (sheet : Stylesheet) : Prop :=
  converter.Recovers sheet.semicolon sheet.nodes ∧
    ∀ node ∈ sheet.allNodes, converter.Recovers node.semicolon node.children

theorem recovers_eraseAll_iff {semicolon : Bool} {block : List Node} :
    converter.Recovers semicolon (Node.eraseAll block) ↔ converter.Recovers semicolon block := by
  constructor
  · intro h front decl next heq hsemicolon hon
    have hdeclared := h (Node.eraseAll front) { decl with span := {} } { next with span := {} }
      (by rw [heq, Node.eraseAll_append]; rfl) hsemicolon hon
    rw [Node.any_declares_eraseAll] at hdeclared
    exact hdeclared
  · intro h front decl next heq hsemicolon hon
    rw [Node.eraseAll_eq_map] at heq
    obtain ⟨before, first, second, rfl, rfl, hfirst, hsecond⟩ := Node.exists_of_map_eq_pair heq
    obtain ⟨decl, rfl⟩ := Node.exists_of_erase_eq hfirst
    obtain ⟨next, rfl⟩ := Node.exists_of_erase_eq hsecond
    cases hfirst
    cases hsecond
    rw [← Node.eraseAll_eq_map, Node.any_declares_eraseAll]
    exact h before decl next rfl hsemicolon hon

theorem allRecover_erase_iff {sheet : Stylesheet} :
    converter.AllRecover sheet.erase ↔ converter.AllRecover sheet := by
  simp [AllRecover, Stylesheet.erase, Stylesheet.allNodes, Node.preorderAll_eraseAll,
    recovers_eraseAll_iff]

section Unmarked

variable (hmarker : converter.marker = [])
  (htarget : ∀ unit ∈ converter.units, unit.name ≠ targetUnit)

include hmarker htarget

/-- **A second run counts nothing** if and only if every block that runs on recovers. -/
theorem isIdle_transform_reread_iff {path : Option Text}
    (hpath : converter.isExcluded path = false) {plain : Stylesheet} (h : plain.Reads) :
    let made := (converter.transform path plain).1
    (converter.transform path made.rejoin.reread).2.tally.IsIdle ↔ converter.AllRecover made := by
  have hquiet := (allFit_rejoin_transform hmarker (isQuiet_convertHead hmarker htarget) hpath h).1
  have hinside := isIdleInside_convertAll_iff hmarker htarget h {} []
  have hjoined := isIdle_joined_iff hmarker htarget h hinside
  simp only [transform_eq hpath] at hquiet ⊢
  apply (isIdle_rereadAll_iff_of rfl (isIdleInside_rereadAll_iff hquiet rfl)).trans
  exact hjoined

/-- The text of a run is read, and a second run over it gives the same text if it counts
    nothing. -/
theorem process_process {path : Option Text} (hpath : converter.isExcluded path = false)
    {css out : Text} {report : Report} (h : converter.process path css = .ok (out, report)) :
    ∃ plain text again, Stylesheet.read css = .ok plain ∧
      converter.process path out = .ok (text, again) ∧
        (again.tally.IsIdle ↔ converter.AllRecover (converter.transform path plain).1) ∧
          (again.tally.IsIdle → text = out) := by
  obtain ⟨plain, hread, rfl, rfl⟩ := (process_eq_ok_iff hpath).mp h
  obtain ⟨-, hplain, hreads⟩ := Stylesheet.read_eq_ok_iff.mp hread
  have hidle := isIdle_transform_reread_iff hmarker htarget hpath hreads
  obtain ⟨hstands, hprint⟩ :=
    allFit_rejoin_transform hmarker (stands_convertHead hmarker) hpath hreads
  have hrejoin : (converter.transform path plain).1.rejoin.erase =
      (converter.transform path plain).1.rejoin := by
    rw [Stylesheet.erase_rejoin, erase_transform path hplain]
  have hagain := Stylesheet.read_print hrejoin hstands
  -- Joining keeps the text, so it is the text of the run that is read.
  rw [hprint] at hagain
  refine ⟨plain, _, _, hread, (process_eq_ok_iff hpath).mpr ⟨_, hagain, rfl, rfl⟩, hidle, ?_⟩
  intro hnothing
  rw [transform_eq hpath] at hnothing ⊢
  rw [convertAll_of_isIdle hnothing]
  exact (Stylesheet.read_eq_ok_iff.mp hagain).1

omit hmarker htarget in
theorem process_of_isExcluded {path : Option Text} (hpath : converter.isExcluded path = true)
    (css : Text) : converter.process path css = .ok (css, { excluded := true }) := by
  rw [process, if_pos hpath]

/-! ### Where values are replaced -/

omit htarget in
theorem allRecover_of_replace (hreplace : converter.options.replace = true) {path : Option Text}
    (hpath : converter.isExcluded path = false) {plain : Stylesheet} (h : plain.Reads) :
    converter.AllRecover (converter.transform path plain).1 := by
  rw [transform_eq hpath]
  exact ⟨recovers_of_not_runsOn (not_runsOn_convertAll hreplace hmarker h {} []),
    fun inner hinner => recovers_of_not_runsOn
      (not_runsOn_of_mem_preorderAll hreplace hmarker h {} [] inner hinner)⟩

/-- **Where values are replaced, a second run changes nothing** and reports no change. -/
theorem process_idempotent_of_replace (hreplace : converter.options.replace = true)
    {path : Option Text} {css out : Text} {report : Report}
    (h : converter.process path css = .ok (out, report)) :
    ∃ again, converter.process path out = .ok (out, again) ∧
      again.tally.replaced = 0 ∧ again.tally.fallbacks = 0 ∧ again.tally.mediaConverted = 0 := by
  cases hpath : converter.isExcluded path with
  | true => exact ⟨_, process_of_isExcluded hpath out, rfl, rfl, rfl⟩
  | false =>
    obtain ⟨plain, text, again, hread, hagain, hidle, htext⟩ :=
      process_process hmarker htarget hpath h
    have hreads := (Stylesheet.read_eq_ok_iff.mp hread).2.2
    have hnothing := hidle.mpr (allRecover_of_replace hmarker hreplace hpath hreads)
    rw [htext hnothing] at hagain
    exact ⟨again, hagain, hnothing⟩

end Unmarked

theorem process_idempotent_of_replace_glued :
    let converter := ofOptions { mediaQuery := true }
    converter.process none "@media.5px;a:5px".toList =
        .ok ("@media0.005em;a:0.05em".toList,
          { tally := { replaced := 1, mediaConverted := 1 } }) ∧
      ∃ again, converter.process none "@media0.005em;a:0.05em".toList =
          .ok ("@media0.005em;a:0.05em".toList, again) ∧
        again.tally.replaced = 0 ∧ again.tally.fallbacks = 0 ∧ again.tally.mediaConverted = 0 := by
  intro converter
  have hread : Stylesheet.read "@media.5px;a:5px".toList = .ok {
      nodes := [.atLine { name := "media".toList, params := ".5px".toList },
        .declaration { prop := ['a'], value := "5px".toList, between := [':'] }] } := by
    cbv
  have hfirst := (process_eq_ok_iff (converter.isExcluded_none)).mpr
    ⟨_, hread, (by decide +kernel : _ = "@media0.005em;a:0.05em".toList),
      (by decide +kernel : _ = { tally := { replaced := 1, mediaConverted := 1 } })⟩
  exact ⟨hfirst, process_idempotent_of_replace rfl (by decide +kernel) rfl hfirst⟩

/-! ### Where declarations are put behind others -/

theorem replaced_process (hreplace : converter.options.replace = false) {path : Option Text}
    {css out : Text} {report : Report} (h : converter.process path css = .ok (out, report)) :
    report.tally.replaced = 0 := by
  cases hpath : converter.isExcluded path with
  | true =>
    rw [process_of_isExcluded hpath] at h
    cases h
    rfl
  | false =>
    obtain ⟨plain, -, -, rfl⟩ := (process_eq_ok_iff hpath).mp h
    rw [transform_eq hpath]
    exact replaced_convertAll hreplace plain.nodes {} []

/-- **Where declarations are put behind others, a second run changes nothing if and only if
    every block that runs on recovers**: the last declaration of the block but one then takes
    in the declaration that was put behind it, and the converted value of the two is declared
    in front of them. -/
theorem process_idempotent_of_append_iff (hmarker : converter.marker = [])
    (htarget : ∀ unit ∈ converter.units, unit.name ≠ targetUnit)
    (hreplace : converter.options.replace = false) {path : Option Text} {css out : Text}
    {report : Report} (h : converter.process path css = .ok (out, report)) :
    ∃ text again, converter.process path out = .ok (text, again) ∧
      ((text = out ∧ again.tally.fallbacks = 0 ∧ again.tally.mediaConverted = 0) ↔
        (converter.isExcluded path = true ∨ ∀ sheet, Stylesheet.parse css = .ok sheet →
          converter.AllRecover (converter.transform path sheet).1)) := by
  cases hpath : converter.isExcluded path with
  | true =>
    exact ⟨out, _, process_of_isExcluded hpath out,
      iff_of_true ⟨rfl, rfl, rfl⟩ (Or.inl rfl)⟩
  | false =>
    obtain ⟨plain, text, again, hread, hagain, hidle, htext⟩ :=
      process_process hmarker htarget hpath h
    have hplain := (Stylesheet.read_eq_ok_iff.mp hread).2.1
    have hparse := Stylesheet.parse_eq_ok_iff.mpr ⟨plain, hread, rfl⟩
    have hrecover : converter.AllRecover (converter.transform path plain.locate).1 ↔
        converter.AllRecover (converter.transform path plain).1 := by
      rw [transform_locate path hplain, allRecover_erase_iff]
    refine ⟨text, again, hagain, ?_⟩
    constructor
    · -- Such a run replaces nothing, so the two counts are all that can be positive.
      rintro ⟨-, hfallbacks, hmedia⟩
      have hnothing := hidle.mp ⟨replaced_process hreplace hagain, hfallbacks, hmedia⟩
      apply Or.inr
      intro sheet hsheet
      cases hparse.symm.trans hsheet
      exact hrecover.mpr hnothing
    · intro hcondition
      have hall := hcondition.resolve_left (by simp)
      have hnothing := hidle.mpr (hrecover.mp (hall _ hparse))
      exact ⟨htext hnothing, hnothing.2⟩

/-- A backslash takes in the declaration behind it, but what comes of that stands in front. -/
theorem process_idempotent_of_append_twin :
    let converter := ofOptions { replace := false }
    converter.process none "p:1em \\;p:1em \\ ;p:100px \\".toList =
        .ok ("p:1em \\;p:1em \\ ;p:100px \\;p:1em \\".toList,
          { tally := { fallbacks := 1 } }) ∧
      ∀ sheet, Stylesheet.parse "p:1em \\;p:1em \\ ;p:100px \\".toList = .ok sheet →
        converter.AllRecover (converter.transform none sheet).1 := by
  intro converter
  have hread : Stylesheet.read "p:1em \\;p:1em \\ ;p:100px \\".toList = .ok {
      nodes := [
        .declaration { prop := ['p'], value := "1em \\;p:1em \\".toList, between := [':'],
                       after := [' '] },
        .declaration { prop := ['p'], value := "100px \\".toList, between := [':'] }] } := by
    cbv
  have hreread : Stylesheet.read "p:1em \\;p:1em \\ ;p:100px \\;p:1em \\".toList = .ok {
      nodes := [
        .declaration { prop := ['p'], value := "1em \\;p:1em \\".toList, between := [':'],
                       after := [' '] },
        .declaration
          { prop := ['p'], value := "100px \\;p:1em \\".toList, between := [':'] }] } := by
    cbv
  have hfirst := (process_eq_ok_iff converter.isExcluded_none).mpr ⟨_, hread,
    (by decide +kernel : _ = "p:1em \\;p:1em \\ ;p:100px \\;p:1em \\".toList),
    (by decide +kernel : _ = { tally := { fallbacks := 1 } })⟩
  have hsecond := (process_eq_ok_iff converter.isExcluded_none).mpr ⟨_, hreread,
    (by decide +kernel : _ = "p:1em \\;p:1em \\ ;p:100px \\;p:1em \\".toList),
    (by decide +kernel : _ = { tally := { skippedDuplicates := 1 } })⟩
  obtain ⟨text, again, hagain, hiff⟩ :=
    process_idempotent_of_append_iff rfl (by decide +kernel) rfl hfirst
  cases hsecond.symm.trans hagain
  exact ⟨hfirst, (hiff.mp ⟨rfl, rfl, rfl⟩).resolve_left (by decide +kernel)⟩

/-- A parenthesis that is left open takes in the declaration behind it, and the next run puts
    another one there. -/
theorem not_idempotent_of_open_parenthesis :
    let converter := ofOptions { replace := false }
    (converter.options.replace = false ∧ converter.marker = [] ∧
        ∀ unit ∈ converter.units, unit.name ≠ targetUnit) ∧
      converter.process none "a:(5px".toList =
          .ok ("a:(5px;a:(0.05em".toList, { tally := { fallbacks := 1 } }) ∧
        ¬ ∃ again, converter.process none "a:(5px;a:(0.05em".toList =
            .ok ("a:(5px;a:(0.05em".toList, again) ∧
          again.tally.fallbacks = 0 ∧ again.tally.mediaConverted = 0 := by
  intro converter
  have hread : Stylesheet.read "a:(5px".toList = .ok {
      nodes := [.declaration { prop := ['a'], value := "(5px".toList, between := [':'] }] } := by
    cbv
  have hreread : Stylesheet.read "a:(5px;a:(0.05em".toList = .ok {
      nodes := [.declaration
        { prop := ['a'], value := "(5px;a:(0.05em".toList, between := [':'] }] } := by
    cbv
  have hfirst := (process_eq_ok_iff converter.isExcluded_none).mpr ⟨_, hread,
    (by decide +kernel : _ = "a:(5px;a:(0.05em".toList),
    (by decide +kernel : _ = { tally := { fallbacks := 1 } })⟩
  refine ⟨⟨rfl, rfl, by decide +kernel⟩, hfirst, ?_⟩
  rintro ⟨again, hagain, -⟩
  obtain ⟨plain, hplain, hprint, -⟩ := (process_eq_ok_iff converter.isExcluded_none).mp hagain
  cases hreread.symm.trans hplain
  exact absurd hprint (by decide +kernel)

end EmScale.Converter
