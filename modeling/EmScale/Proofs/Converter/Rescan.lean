/-
  EmScale/Proofs/Converter/Rescan.lean
  ====================================
  **Converted values are scanned like the values they come from.**

  A scan of a converted value takes the same steps as a scan of the value, except that a
  length that was converted is now made of single characters
  (`Converter.scanFrom_convertFrom`).  It cannot be taken for a length again, because
  nothing but the target unit follows its number, and that is no unit of the table.  So
  converting is done once and for all (`Converter.convertValue_convertValue`), and a value
  is left alone exactly if every length in it stays
  (`Converter.convertFrom_eq_self_iff`).
-/
import EmScale.Proofs.Converter.Value

namespace EmScale

open Text (StartsOff)

/-! ### Converted lengths are no lengths -/

theorem not_isAlpha_of_isCharacter {c : Char} (h : Numeral.isCharacter c = true) :
    c.isAlpha = false := by
  simp only [Numeral.isCharacter, Bool.or_eq_true, beq_iff_eq] at h
  rcases h with ((hdigit | rfl) | rfl) | rfl
  · by_contra halpha
    simp only [Char.isAlpha, Char.isUpper, Char.isLower, Char.isDigit, Bool.not_eq_false,
      Bool.or_eq_true, Bool.and_eq_true, decide_eq_true_eq, ge_iff_le,
      UInt32.le_iff_toNat_le] at halpha hdigit
    simp at halpha hdigit
    omega
  · decide
  · decide
  · decide

theorem isCharacter_of_isNumberCharacter {c : Char} (h : isNumberCharacter c = true) :
    Numeral.isCharacter c = true := by
  simp only [isNumberCharacter, Bool.or_eq_true] at h
  rcases h with (hdigit | hpoint) | hminus
  · simp [Numeral.isCharacter, hdigit]
  · simp [Numeral.isCharacter, hpoint]
  · simp [Numeral.isCharacter, hminus]

/-- Where a text without letters meets a run of letters is determined. -/
theorem letters_cut_unique {a b x y : Text} (ha : ∀ c ∈ a, c.isAlpha = false)
    (hb : ∀ c ∈ b, c.isAlpha = false) (hx : ∀ c ∈ x, c.isAlpha = true)
    (hy : ∀ c ∈ y, c.isAlpha = true) (h : a ++ x = b ++ y) : x = y := by
  have hcut : ∀ {a x : Text}, (∀ c ∈ a, c.isAlpha = false) → (∀ c ∈ x, c.isAlpha = true) →
      (a ++ x).dropWhile (fun c => !c.isAlpha) = x := by
    intro a x ha hx
    refine (Text.takeWhile_append_of_startsOff (by simpa using ha) ?_).2
    intro c hc
    simp [hx c (List.mem_of_mem_head? hc)]
  rw [← hcut ha hx, h, hcut hb hy]

theorem isNumberCharacter_continuesWord {c : Char} (h : isNumberCharacter c = true) :
    continuesWord c = true := by
  simp only [isNumberCharacter, Bool.or_eq_true, beq_iff_eq] at h
  rcases h with (hdigit | rfl) | rfl
  · exact continuesWord_of_isDigit hdigit
  · decide
  · decide

namespace Text.IsConverted

variable {x : Text}

theorem continuesWord (h : x.IsConverted) : ∀ c ∈ x, continuesWord c = true := by
  obtain ⟨number, suffix, rfl, hnumber, hsuffix⟩ := h
  intro c hc
  rcases List.mem_append.mp hc with hc | hc
  · exact isNumberCharacter_continuesWord (hnumber.2 c hc)
  · rcases hsuffix with rfl | rfl
    · cases hc
    · have htarget : targetUnit.all EmScale.continuesWord = true := by decide
      exact List.all_eq_true.mp htarget c hc

theorem isSignedWord (h : x.IsConverted) : x.IsSignedWord := by
  have hword := h.continuesWord
  have hne := h.isLengthLike.1
  rcases x with _ | ⟨c, x⟩
  · exact hne rfl
  · exact ⟨Or.inr (hword c (by simp)), fun d hd => hword d (by simp [hd])⟩

/-- **A converted length is no length**, not even with a plus sign in front of it. -/
theorem ne_length (h : x.IsConverted) {units : UnitTable} (hunits : units.IsNamed)
    (htarget : ∀ unit ∈ units, unit.name ≠ targetUnit) {sign : Text}
    (hsign : sign = [] ∨ sign = ['+']) {n : Numeral} (hn : n.IsWritten) {unit : SourceUnit}
    (hunit : unit ∈ units) : n.print ++ unit.name ≠ sign ++ x := by
  obtain ⟨number, suffix, rfl, hnumber, hsuffix⟩ := h
  obtain ⟨hne, hletters⟩ := isUnitName_iff.mp (hunits unit hunit)
  intro hlength
  rw [← List.append_assoc] at hlength
  have hname : unit.name = suffix := by
    refine letters_cut_unique ?_ ?_ hletters ?_ hlength
    · exact fun c hc => not_isAlpha_of_isCharacter (hn.isCharacter c hc)
    · intro c hc
      rcases List.mem_append.mp hc with hc | hc
      · rcases hsign with rfl | rfl
        · cases hc
        · rw [List.mem_singleton.mp hc]
          decide
      · exact not_isAlpha_of_isCharacter (isCharacter_of_isNumberCharacter (hnumber.2 c hc))
    · rcases hsuffix with rfl | rfl
      · simp
      · have hletters : targetUnit.all Char.isAlpha = true := by decide
        exact List.all_eq_true.mp hletters
  rcases hsuffix with rfl | rfl
  · exact hne hname
  · exact htarget unit hunit hname

theorem readLength?_eq_none (h : x.IsConverted) {units : UnitTable} (hunits : units.IsNamed)
    (htarget : ∀ unit ∈ units, unit.name ≠ targetUnit) {sign b : Text}
    (hsign : sign = [] ∨ sign = ['+']) (hb : StartsOff EmScale.continuesWord b) :
    Token.readLength? units (sign ++ x ++ b) = none := by
  have hword : (sign ++ x).IsSignedWord := by
    rcases hsign with rfl | rfl
    · exact h.isSignedWord
    · exact ⟨Or.inl rfl, h.continuesWord⟩
  rw [Option.eq_none_iff_forall_ne_some]
  rintro ⟨n, unit, rest⟩ hread
  obtain ⟨hlength, -, hn, hunit⟩ := (Token.readLength?_append_iff hunits hword hb).mp hread
  exact h.ne_length hunits htarget hsign hn (UnitTable.mem_of_startOf? hunit) hlength

theorem ne_backslash (h : x.IsConverted) : ∀ c ∈ x, c ≠ '\\' := by
  rintro c hc rfl
  exact absurd (h.isLengthLike.2 '\\' hc) (by decide)

theorem step_inside (h : x.IsConverted) {c : Char} (hc : c ∈ x) :
    (Region.free .inside).step c = .free .inside :=
  Region.step_inside (h.continuesWord c hc) (h.ne_backslash c hc)

theorem step_edge (h : x.IsConverted) {c : Char} (hc : c ∈ x.head?) :
    (Region.free .edge).step c = .free .inside := by
  have hnumber : isNumberCharacter c = true := by
    obtain ⟨number, suffix, rfl, ⟨hne, hnumber⟩, -⟩ := h
    rcases number with _ | ⟨d, number⟩
    · exact absurd rfl hne
    · cases hc
      exact hnumber c (by simp)
  have hu : c ≠ 'u' := by
    rintro rfl
    exact absurd hnumber (by decide)
  exact Region.step_edge (isNumberCharacter_continuesWord hnumber)
    (h.ne_backslash c (List.mem_of_mem_head? hc)) hu

theorem run_inside (h : x.IsConverted) : (Region.free .inside).run x = .free .inside :=
  Region.run_inside h.continuesWord h.ne_backslash

end Text.IsConverted

/-! ### Rescanning -/

namespace Converter

variable {converter : Converter}

/-- The segments of what takes the place of a segment: a length that stays is a length
    again. -/
def resegment (converter : Converter) : Segment → List Segment
  | .token token =>
    if converter.convertToken token = token.print then [.token token]
    else (converter.convertToken token).map .other
  | .other c => [.other c]

/-- The rest of a word that has been entered stays, and so does its end. -/
theorem convertFrom_restOfWord (converter : Converter) {r : Region} (hr : r.IsWithinWord)
    (t : Text) :
    ∃ w b b', t = w ++ b ∧ converter.convertFrom r t = w ++ b' ∧
      (∀ c ∈ w, continuesWord c = true) ∧ StartsOff continuesWord b ∧
        StartsOff continuesWord b' := by
  have hword : ∀ c ∈ t.takeWhile continuesWord, continuesWord c = true :=
    fun _ hc => Text.mem_takeWhile hc
  have hwhole := List.takeWhile_append_dropWhile (p := continuesWord) (l := t)
  have hoff := Text.startsOff_dropWhile continuesWord t
  have hconverted : converter.convertFrom r _ = _ :=
    convertFrom_hidden (hr.hides hword) (t.dropWhile continuesWord)
  rw [hwhole] at hconverted
  exact ⟨_, _, _, hwhole.symm, hconverted, hword, hoff,
    startsOff_convertFrom_of_not_isEdge (hr.run hword).not_isEdge hoff⟩

section Rescan

variable (hmarker : converter.marker = [])
  (htarget : ∀ unit ∈ converter.units, unit.name ≠ targetUnit)

include hmarker htarget

theorem readLength?_plus_convertFrom_eq_none {t : Text}
    (h : Token.readLength? converter.units ('+' :: t) = none) :
    Token.readLength? converter.units ('+' :: converter.convertFrom (.free .edge) t) = none := by
  have hunits := converter.isNamed_units
  -- Without the plus sign the text may start with a length, which then is converted or stays.
  rcases hread : Token.readLength? converter.units t with _ | ⟨n, unit, rest⟩
  · rcases t with _ | ⟨d, t⟩
    · rwa [convertFrom_nil]
    rw [convertFrom_other hmarker fun _ => hread]
    by_cases hd : continuesWord d = true
    · obtain ⟨w, b, b', rfl, hconverted, hw, hb, hb'⟩ :=
        convertFrom_restOfWord converter (Region.step_free_isWithinWord .edge hd) t
      have hword : Text.IsSignedWord ('+' :: d :: w) :=
        ⟨Or.inl rfl, List.forall_mem_cons.mpr ⟨hd, hw⟩⟩
      rw [← List.cons_append, ← List.cons_append] at h
      rw [hconverted, ← List.cons_append, ← List.cons_append]
      exact Token.readLength?_append_eq_none hunits hword hb hb' h
    · exact Token.readLength?_plus_eq_none hunits (Text.startsOff_cons.mpr (by simpa using hd))
  · rw [convertFrom_token hmarker rfl hread]
    obtain ⟨rfl, hn, hunit, hrest⟩ := (Token.readLength?_eq_some_iff hunits).mp hread
    have hbehind : StartsOff continuesWord (converter.convertFrom (.free .inside) rest) :=
      startsOff_convertFrom_of_not_isEdge rfl hrest
    rcases converter.convertToken_cases n unit with hstays | hconverted
    · rw [hstays]
      have hword := Token.isSignedWord_of_written hunits hn hunit
      rcases hlength : n.print ++ unit.name with _ | ⟨c, w⟩
      · rw [hlength] at hword
        exact hword.elim
      rw [hlength] at hword h
      rcases hword.1 with rfl | hc
      · exact Token.readLength?_plus_eq_none hunits (Text.startsOff_cons.mpr (by decide))
      · have hplus : Text.IsSignedWord ('+' :: c :: w) :=
          ⟨Or.inl rfl, List.forall_mem_cons.mpr ⟨hc, hword.2⟩⟩
        rw [← List.cons_append] at h ⊢
        exact Token.readLength?_append_eq_none hunits hplus hrest hbehind h
    · have hsign : ['+'] = [] ∨ ['+'] = ['+'] := Or.inr rfl
      have hplus := hconverted.readLength?_eq_none hunits htarget hsign hbehind
      rwa [List.singleton_append, List.cons_append] at hplus

/-- **No length appears** where there was none. -/
theorem readLength?_convertFrom_eq_none {c : Char} {t : Text}
    (h : Token.readLength? converter.units (c :: t) = none) :
    Token.readLength? converter.units
      (c :: converter.convertFrom ((Region.free .edge).step c) t) = none := by
  have hunits := converter.isNamed_units
  by_cases hc : continuesWord c = true
  · obtain ⟨w, b, b', rfl, hconverted, hw, hb, hb'⟩ :=
      convertFrom_restOfWord converter (Region.step_free_isWithinWord .edge hc) t
    have hword : Text.IsSignedWord (c :: w) := ⟨Or.inr hc, hw⟩
    rw [← List.cons_append] at h
    rw [hconverted, ← List.cons_append]
    exact Token.readLength?_append_eq_none hunits hword hb hb' h
  · by_cases hplus : c = '+'
    · subst hplus
      exact readLength?_plus_convertFrom_eq_none hmarker htarget h
    · exact Token.readLength?_cons_eq_none hunits _ hplus (by simpa using hc)

omit hmarker in
theorem scanFrom_converted {x b : Text} (hx : x.IsConverted) (hb : StartsOff continuesWord b) :
    Value.scanFrom converter.units [] (.free .edge) (x ++ b) =
      (x.map .other ++ (Value.scanFrom converter.units [] (.free .inside) b).1,
        (Value.scanFrom converter.units [] (.free .inside) b).2) := by
  have hread := hx.readLength?_eq_none converter.isNamed_units htarget (Or.inl rfl) hb
  have hrun := hx.run_inside
  have hword := hx.continuesWord
  rcases x with _ | ⟨c, x⟩
  · exact absurd rfl hx.isLengthLike.1
  have hfirst := hx.step_edge (c := c) rfl
  rw [Region.run_cons, hx.step_inside (by simp)] at hrun
  rw [List.nil_append, List.cons_append] at hread
  rw [List.cons_append, Value.scanFrom_other fun _ => hread, hfirst,
    Value.scanFrom_word Region.isWithinWord_inside (fun d hd => hword d (by simp [hd])), hrun]
  rfl

/-- **A converted value is scanned like the value**, but for the lengths that were
    converted. -/
theorem scanFrom_convertFrom (r : Region) (t : Text) :
    Value.scanFrom converter.units [] r (converter.convertFrom r t) =
      ((Value.scanFrom converter.units [] r t).1.flatMap converter.resegment,
        (Value.scanFrom converter.units [] r t).2) := by
  have hunits := converter.isNamed_units
  induction r, t using Value.scan_induction converter.units with
  | nil r => simp [Value.scanFrom]
  | token r n unit rest hedge hread ih =>
    obtain ⟨-, hn, hunit, hrest⟩ := (Token.readLength?_eq_some_iff hunits).mp hread
    have hbehind : StartsOff continuesWord (converter.convertFrom (.free .inside) rest) :=
      startsOff_convertFrom_of_not_isEdge rfl hrest
    rw [convertFrom_token hmarker hedge hread, Value.scanFrom_token hedge hread]
    by_cases hstays : converter.convertToken ⟨[], n, unit⟩ = n.print ++ unit.name
    · have hagain := (Token.readLength?_eq_some_iff hunits).mpr ⟨rfl, hn, hunit, hbehind⟩
      have hsegment : converter.resegment (.token ⟨[], n, unit⟩) = [.token ⟨[], n, unit⟩] :=
        if_pos hstays
      rw [hstays, Value.scanFrom_token hedge hagain, ih, List.flatMap_cons, hsegment]
      rfl
    · -- What took the place of the length is a word that is no length.
      have hconverted := (converter.convertToken_cases n unit).resolve_left hstays
      have hsegment : converter.resegment (.token ⟨[], n, unit⟩) =
          (converter.convertToken ⟨[], n, unit⟩).map .other := if_neg hstays
      rw [Region.eq_of_isEdge hedge, scanFrom_converted htarget hconverted hbehind, ih,
        List.flatMap_cons, hsegment]
  | other r c t hread ih =>
    have hagain : r.isEdge = true →
        Token.readLength? converter.units (c :: converter.convertFrom (r.step c) t) = none := by
      intro hedge
      have hfirst := hread hedge
      rw [Region.eq_of_isEdge hedge]
      exact readLength?_convertFrom_eq_none hmarker htarget hfirst
    rw [convertFrom_other hmarker hread, Value.scanFrom_other hread, Value.scanFrom_other hagain,
      ih]
    rfl

end Rescan

/-! ### Once and for all -/

theorem flatMap_resegment (segment : Segment) :
    (converter.resegment segment).flatMap converter.convertSegment =
      converter.convertSegment segment := by
  cases segment with
  | other c => rfl
  | token token =>
    by_cases hstays : converter.convertToken token = token.print
    · simp [resegment, hstays]
    · simp [resegment, hstays, flatMap_convertSegment_other, convertSegment]

/-- Of the lengths of a value, those that stay are the lengths of the converted value. -/
theorem filterMap_resegment (segment : Segment) :
    (converter.resegment segment).filterMap Segment.token? =
      segment.token?.toList.filter fun token =>
        Decidable.decide (converter.convertToken token = token.print) := by
  have hcopied : ∀ t : Text, (t.map Segment.other).filterMap Segment.token? = [] := by
    intro t
    simp [List.filterMap_eq_nil_iff, Segment.token?]
  cases segment with
  | other c => rfl
  | token token =>
    by_cases hstays : converter.convertToken token = token.print
    · simp [resegment, hstays, Segment.token?]
    · simp [resegment, hstays, Segment.token?, hcopied]

theorem filterMap_flatMap_resegment (segments : List Segment) :
    (segments.flatMap converter.resegment).filterMap Segment.token? =
      (segments.filterMap Segment.token?).filter fun token =>
        Decidable.decide (converter.convertToken token = token.print) := by
  induction segments with
  | nil => rfl
  | cons segment segments ih =>
    rw [List.flatMap_cons, List.filterMap_append, ih, filterMap_resegment, ← List.filter_append]
    cases segment <;> rfl

section Settled

variable (hmarker : converter.marker = [])
  (htarget : ∀ unit ∈ converter.units, unit.name ≠ targetUnit)

include hmarker htarget

/-- **Converting is done once and for all.** -/
theorem convertFrom_convertFrom (r : Region) (t : Text) :
    converter.convertFrom r (converter.convertFrom r t) = converter.convertFrom r t := by
  have hscan := congrArg Prod.fst (scanFrom_convertFrom hmarker htarget r t)
  rw [← hmarker] at hscan
  calc converter.convertFrom r (converter.convertFrom r t)
    _ = ((Value.scanFrom converter.units converter.marker r t).1.flatMap
          converter.resegment).flatMap converter.convertSegment := congrArg _ hscan
    _ = converter.convertFrom r t := by
      rw [List.flatMap_assoc]
      simp only [flatMap_resegment]
      rfl

/-- **A value is left alone exactly if every length in it stays.** -/
theorem convertFrom_eq_self_iff {r : Region} {t : Text} :
    converter.convertFrom r t = t ↔
      ∀ token ∈ (Value.scanFrom converter.units [] r t).1.filterMap Segment.token?,
        converter.convertToken token = token.print := by
  constructor
  · intro h
    have hscan := congrArg Prod.fst (scanFrom_convertFrom hmarker htarget r t)
    rw [h] at hscan
    have hkept := congrArg (List.filterMap Segment.token?) hscan
    rw [filterMap_flatMap_resegment] at hkept
    simpa using List.filter_eq_self.mp hkept.symm
  · intro h
    apply convertFrom_eq_self
    rw [hmarker]
    intro token htoken
    exact h token (Segment.mem_filterMap_token?.mpr htoken)

theorem convertValue_convertValue (value : Text) :
    converter.convertValue (converter.convertValue value) = converter.convertValue value :=
  convertFrom_convertFrom hmarker htarget .start value

/-- A value that changes still does with more text behind its last word. -/
theorem convertValue_append_ne {value more : Text} (hvalue : converter.convertValue value ≠ value)
    (hmore : StartsOff continuesWord more) :
    converter.convertValue (value ++ more) ≠ value ++ more := by
  intro hsame
  refine hvalue ((convertFrom_eq_self_iff hmarker htarget).mpr fun token htoken => ?_)
  apply (convertFrom_eq_self_iff hmarker htarget).mp hsame token
  rw [Value.scanFrom_append converter.isNamed_units _ _ hmore, List.filterMap_append]
  exact List.mem_append_left _ htoken

omit htarget in
theorem convertValue_append_ne_convertValue (value : Text) {more : Text} (hne : more ≠ [])
    (hmore : StartsOff continuesWord more) :
    converter.convertValue (value ++ more) ≠ converter.convertValue value := by
  obtain ⟨r, happend⟩ := exists_convertFrom_append hmarker .start value hmore
  rw [convertValue_eq_convertFrom, happend, convertValue_eq_convertFrom]
  intro hsame
  exact hne ((convertFrom_eq_nil_iff hmarker).mp (List.append_right_eq_self.mp hsame))

end Settled

end Converter

end EmScale
