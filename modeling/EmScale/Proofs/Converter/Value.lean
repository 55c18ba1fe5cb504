/-
  EmScale/Proofs/Converter/Value.lean
  ===================================
  **What a converted value looks like.**

  Without an ignore marker, a length either stays or becomes a number with or without the
  target unit (`Converter.convertToken_cases`).  Both are made of letters, digits, signs and
  points, which mean nothing to the scan of statements and are no blanks.  So a converted
  value can stand for the value it comes from (`Converter.alike_convertFrom`), and it starts
  and ends with a blank only if that one does.
-/
import EmScale.Converter.Value
import EmScale.Proofs.Number.Shortest
import EmScale.Proofs.Sheet.Lexis
import EmScale.Proofs.Value.Scan

namespace EmScale

open Text (StartsOff IsTight)

/-! ### Converted lengths -/

/-- A text that a length may be converted to: a number, with the target unit or without. -/
def Text.IsConverted (t : Text) : Prop :=
  ∃ number suffix, t = number ++ suffix ∧ number.IsNumber ∧ (suffix = [] ∨ suffix = targetUnit)

theorem isLengthCharacter_of_isNumberCharacter {c : Char} (h : isNumberCharacter c = true) :
    isLengthCharacter c = true := by
  simp only [isNumberCharacter, Bool.or_eq_true] at h
  rcases h with (hdigit | hpoint) | hminus
  · simp [isLengthCharacter, Char.isAlphanum, hdigit]
  · simp [isLengthCharacter, hpoint]
  · simp [isLengthCharacter, hminus]

theorem Text.IsConverted.isLengthLike {t : Text} (h : t.IsConverted) : t.IsLengthLike := by
  obtain ⟨number, suffix, rfl, ⟨hne, hnumber⟩, hsuffix⟩ := h
  constructor
  · simp [hne]
  · intro c hc
    rcases List.mem_append.mp hc with hc | hc
    · exact isLengthCharacter_of_isNumberCharacter (hnumber c hc)
    · rcases hsuffix with rfl | rfl
      · cases hc
      · have htarget : targetUnit.all isLengthCharacter = true := by decide
        exact List.all_eq_true.mp htarget c hc

namespace Converter

variable {converter : Converter}

/-- The number that a length is converted to, which need not be finite. -/
def quotient (converter : Converter) (token : Token) : Float :=
  toFixed (token.numeral.toFloat / token.unit.divisor) converter.options.unitPrecision

theorem isBelowMinimum_iff {token : Token} :
    converter.isBelowMinimum token = true ↔
      token.numeral.toFloat.abs < converter.options.minPixelValue :=
  decide_eq_true_iff

/-- Nothing but a number that is not finite is no result. -/
theorem scale?_eq_none_iff {value divisor : Float} :
    converter.scale? value divisor = none ↔
      (toFixed (value / divisor) converter.options.unitPrecision).isFinite = false := by
  unfold scale?
  dsimp only
  split
  · simp_all
  · split <;> simp_all

/-- **What is converted is a numeral in the target unit**, or a zero. -/
theorem scale?_cases {value divisor : Float} {t : Text}
    (h : converter.scale? value divisor = some t) :
    t = ['0'] ∨
      ∃ m : Numeral, m.IsWritten ∧ m.sign ≠ ['+'] ∧ t = m.print ++ targetUnit := by
  unfold scale? at h
  dsimp only at h
  split at h
  · cases h
  · rename_i hfinite
    split at h
    · rename_i hzero
      cases h
      left
      simp [formatNumber, hzero]
    · rename_i hzero
      cases h
      right
      obtain ⟨m, hm, hplus, hprint⟩ := exists_numeral_printShortest (by simpa using hfinite)
      exact ⟨m, hm, hplus, by rw [hprint, formatNumber, if_neg hzero]⟩

theorem isConverted_of_scale? {value divisor : Float} {t : Text}
    (h : converter.scale? value divisor = some t) : t.IsConverted := by
  rcases scale?_cases h with rfl | ⟨m, hm, hplus, rfl⟩
  · exact ⟨['0'], [], rfl, ⟨by simp, by simp [isNumberCharacter]⟩, Or.inl rfl⟩
  · exact ⟨m.print, targetUnit, rfl, hm.isNumber hplus, Or.inr rfl⟩

theorem convertToken_cases (converter : Converter) (n : Numeral) (unit : SourceUnit) :
    converter.convertToken ⟨[], n, unit⟩ = n.print ++ unit.name ∨
      (converter.convertToken ⟨[], n, unit⟩).IsConverted := by
  have hprint : Token.print ⟨[], n, unit⟩ = n.print ++ unit.name := rfl
  unfold convertToken
  split
  · exact Or.inl rfl
  · split
    · exact Or.inl hprint
    · dsimp only
      rcases hscale : converter.scale? n.toFloat unit.divisor with _ | t
      · exact Or.inl hprint
      · exact Or.inr (isConverted_of_scale? hscale)

/-! ### Converted values -/

/-- A value converted from a place on. -/
def convertFrom (converter : Converter) (r : Region) (t : Text) : Text :=
  (Value.scanFrom converter.units converter.marker r t).1.flatMap converter.convertSegment

theorem convertValue_eq_convertFrom (value : Text) :
    converter.convertValue value = converter.convertFrom .start value := rfl

theorem isNamed_units (converter : Converter) : converter.units.IsNamed := by
  rw [converter.units_eq]
  exact RootValue.isNamed_resolve _

theorem isOrdered_units (converter : Converter) : converter.units.IsOrdered := by
  rw [converter.units_eq]
  exact RootValue.isOrdered_resolve _

/-- **The lengths in the units of a converter are read**, in front of the end of a word. -/
theorem readLength?_of_isWritten {n : Numeral} (hn : n.IsWritten) {unit : SourceUnit}
    (hunit : unit ∈ converter.units) {b : Text} (hb : StartsOff continuesWord b) :
    Token.readLength? converter.units (n.print ++ unit.name ++ b) = some (n, unit, b) := by
  apply (Token.readLength?_eq_some_iff converter.isNamed_units).mpr
  exact ⟨rfl, hn, (UnitTable.startOf?_name_iff converter.isOrdered_units).mpr hunit, hb⟩

@[simp] theorem convertFrom_nil (r : Region) : converter.convertFrom r [] = [] := by
  simp [convertFrom, Value.scanFrom]

theorem flatMap_convertSegment_other (t : Text) :
    (t.map Segment.other).flatMap converter.convertSegment = t := by
  rw [List.flatMap_map]
  exact List.flatMap_singleton' t

theorem convertFrom_of_found {r : Region} {t lead rest : Text} {token : Token}
    (h : Value.tokenAt? converter.units converter.marker r t = some (lead, token, rest)) :
    converter.convertFrom r t =
      lead ++ (converter.convertToken token ++ converter.convertFrom (.free .inside) rest) := by
  simp only [convertFrom, Value.scanFrom_of_found h, List.flatMap_append, List.flatMap_cons,
    flatMap_convertSegment_other]
  rfl

theorem convertFrom_of_missed {r : Region} {c : Char} {t : Text}
    (h : Value.tokenAt? converter.units converter.marker r (c :: t) = none) :
    converter.convertFrom r (c :: t) = c :: converter.convertFrom (r.step c) t := by
  simp only [convertFrom, Value.scanFrom_of_missed h, List.flatMap_cons]
  rfl

/-- **A value stays if all its lengths do.** -/
theorem convertFrom_eq_self {r : Region} {t : Text}
    (h : ∀ token, .token token ∈ (Value.scanFrom converter.units converter.marker r t).1 →
      converter.convertToken token = token.print) : converter.convertFrom r t = t := by
  conv => rhs; rw [← Value.print_scanFrom converter.units converter.marker r t]
  apply List.flatMap_congr
  intro segment hsegment
  cases segment with
  | other c => rfl
  | token token => exact h token hsegment

/-- **Where no length is looked for the text is copied.** -/
theorem convertFrom_hidden {r : Region} {x : Text} (h : r.Hides x) (t : Text) :
    converter.convertFrom r (x ++ t) = x ++ converter.convertFrom (r.run x) t := by
  simp only [convertFrom, Value.scanFrom_hidden h, List.flatMap_append,
    flatMap_convertSegment_other]

/-- **A value is converted in parts** in front of and behind a character that neither words nor
    lengths go across. -/
theorem convertFrom_append_cons (hmarker : ∀ c ∈ converter.marker, continuesWord c = true)
    (r : Region) (a : Text) {d : Char} {t : Text} (hd : continuesWord d = false)
    (hlength : Token.readLength? converter.units (d :: t) = none)
    (hread : Token.read? converter.units converter.marker (d :: t) = none) :
    converter.convertFrom r (a ++ d :: t) =
      converter.convertFrom r a ++ d :: converter.convertFrom
        ((Value.scanFrom converter.units converter.marker r a).2.step d) t := by
  simp only [convertFrom,
    Value.scanFrom_append_cons converter.isNamed_units hmarker r a hd hlength hread,
    List.flatMap_append, List.flatMap_cons]
  rfl

theorem startsOff_convertFrom_of_not_isEdge {p : Char → Bool} {r : Region} {t : Text}
    (hr : r.isEdge = false) (h : StartsOff p t) : StartsOff p (converter.convertFrom r t) := by
  cases t with
  | nil => simp
  | cons c t =>
    rw [convertFrom_of_missed (Value.tokenAt?_eq_none hr _)]
    exact Text.startsOff_cons.mpr (Text.startsOff_cons.mp h)

section Unmarked

variable (hmarker : converter.marker = [])

include hmarker

theorem convertFrom_token {r : Region} {t rest : Text} {n : Numeral} {unit : SourceUnit}
    (hedge : r.isEdge = true)
    (h : Token.readLength? converter.units t = some (n, unit, rest)) :
    converter.convertFrom r t =
      converter.convertToken ⟨[], n, unit⟩ ++ converter.convertFrom (.free .inside) rest := by
  simp [convertFrom, hmarker, Value.scanFrom_token hedge h, convertSegment]

theorem convertFrom_other {r : Region} {c : Char} {t : Text}
    (h : r.isEdge = true → Token.readLength? converter.units (c :: t) = none) :
    converter.convertFrom r (c :: t) = c :: converter.convertFrom (r.step c) t := by
  simp [convertFrom, hmarker, Value.scanFrom_other h, convertSegment]

omit hmarker in
/-- Both what stands in the place of a length and the length itself are like lengths. -/
theorem isLengthLike_of_readLength? {t rest : Text} {n : Numeral} {unit : SourceUnit}
    (h : Token.readLength? converter.units t = some (n, unit, rest)) :
    (n.print ++ unit.name).IsLengthLike ∧
      (converter.convertToken ⟨[], n, unit⟩).IsLengthLike := by
  obtain ⟨-, hwritten, hunit, -⟩ := (Token.readLength?_eq_some_iff converter.isNamed_units).mp h
  obtain ⟨hne, hletters⟩ :=
    isUnitName_iff.mp (converter.isNamed_units unit (UnitTable.mem_of_startOf? hunit))
  have hlength := hwritten.isLengthLike_append hne hletters
  refine ⟨hlength, ?_⟩
  rcases converter.convertToken_cases n unit with hstays | hconverted
  · rw [hstays]
    exact hlength
  · exact hconverted.isLengthLike

/-- A value is converted on from where a word has ended. -/
theorem exists_convertFrom_append (r : Region) (a : Text) {b : Text}
    (hb : StartsOff continuesWord b) :
    ∃ r', converter.convertFrom r (a ++ b) =
      converter.convertFrom r a ++ converter.convertFrom r' b := by
  refine ⟨(Value.scanFrom converter.units [] r a).2, ?_⟩
  simp only [convertFrom, hmarker, Value.scanFrom_append converter.isNamed_units r a hb,
    List.flatMap_append]

theorem convertFrom_eq_nil_iff {r : Region} {t : Text} :
    converter.convertFrom r t = [] ↔ t = [] := by
  induction r, t using Value.scan_induction converter.units with
  | nil r => simp
  | token r n unit rest hedge hread _ =>
    obtain ⟨hlength, hconverted⟩ := isLengthLike_of_readLength? hread
    rw [convertFrom_token hmarker hedge hread]
    refine iff_of_false ?_ ?_
    · exact List.append_ne_nil_of_left_ne_nil hconverted.1 _
    · exact List.append_ne_nil_of_left_ne_nil hlength.1 _
  | other r c t hread _ =>
    rw [convertFrom_other hmarker hread]
    simp

/-- **A converted value can stand for the value** in a statement. -/
theorem alike_convertFrom (r : Region) (t : Text) :
    Lexis.Alike t (converter.convertFrom r t) := by
  induction r, t using Value.scan_induction converter.units with
  | nil r =>
    rw [convertFrom_nil]
    exact Lexis.Alike.refl []
  | token r n unit rest hedge hread ih =>
    obtain ⟨hlength, hconverted⟩ := isLengthLike_of_readLength? hread
    rw [convertFrom_token hmarker hedge hread]
    have hinert : ∀ {x : Text}, x.IsLengthLike → ∀ c ∈ x, Lexis.isInert c = true :=
      fun hx c hc => Lexis.isInert_of_false (by decide) (hx.2 c hc)
    exact (Lexis.Alike.of_isInert hlength.1 hconverted.1 (hinert hlength)
      (hinert hconverted)).append ih
  | other r c t hread ih =>
    rw [convertFrom_other hmarker hread]
    exact (Lexis.Alike.refl [c]).append ih

theorem startsOff_convertFrom {r : Region} {t : Text} (h : StartsOff Unicode.isWhiteSpace t) :
    StartsOff Unicode.isWhiteSpace (converter.convertFrom r t) := by
  induction r, t using Value.scan_induction converter.units with
  | nil r => simp
  | token r n unit rest hedge hread _ =>
    rw [convertFrom_token hmarker hedge hread]
    exact (isLengthLike_of_readLength? hread).2.startsOff_isWhiteSpace _
  | other r c t hread _ =>
    rw [convertFrom_other hmarker hread]
    exact Text.startsOff_cons.mpr (Text.startsOff_cons.mp h)

theorem isTight_convertFrom {r : Region} {t : Text} (h : IsTight t) :
    IsTight (converter.convertFrom r t) := by
  induction r, t using Value.scan_induction converter.units with
  | nil r => simp
  | token r n unit rest hedge hread ih =>
    rw [convertFrom_token hmarker hedge hread]
    by_cases hrest : rest = []
    · rw [hrest, convertFrom_nil, List.append_nil]
      exact (isLengthLike_of_readLength? hread).2.isTight
    · rw [Text.isTight_append_iff hrest] at h
      rw [Text.isTight_append_iff (by rwa [Ne, convertFrom_eq_nil_iff hmarker])]
      exact ih h
  | other r c t hread ih =>
    rw [convertFrom_other hmarker hread]
    by_cases ht : t = []
    · rw [ht, convertFrom_nil]
      rw [ht] at h
      exact h
    · rw [← List.singleton_append, Text.isTight_append_iff ht] at h
      rw [← List.singleton_append,
        Text.isTight_append_iff (by rwa [Ne, convertFrom_eq_nil_iff hmarker])]
      exact ih h

end Unmarked

end Converter

end EmScale
