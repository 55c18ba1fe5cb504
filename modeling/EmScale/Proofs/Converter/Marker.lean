/-
  EmScale/Proofs/Converter/Marker.lean
  ====================================
  **Which numbers an ignore marker keeps from being converted.**

  A marked length is looked for in front of any other one, so whatever the marker is made of,
  the length behind it is copied (`Converter.convertFrom_marked`).  A sign may stand in front
  of the marker, and it is cut off first.  So a marker that starts with a sign itself is not
  found at its own place, unless it is a run of one sign and the number goes on with that
  sign: a number without a sign behind it is not copied (`Converter.convertValue_marked`).
-/
import EmScale.Proofs.Converter.Rescan

namespace EmScale

open Text (StartsOff)

/-- A text does not start with itself behind its first character, in front of anything that
    starts differently. -/
theorem not_cons_prefix_append {c : Char} {m y : Text} (hy : y.head? ≠ some c) :
    ¬ c :: m <+: m ++ y := by
  induction m with
  | nil =>
    rintro ⟨rest, rfl⟩
    exact hy rfl
  | cons d m ih =>
    rw [List.cons_append, List.cons_prefix_cons]
    rintro ⟨rfl, hprefix⟩
    exact ih hprefix

/-- A marker that starts with a sign is not found in front of a text without one. -/
theorem Token.readIgnored?_eq_none_of_isSign {units : UnitTable} {c : Char} {m t : Text}
    (hc : isSign c = true) (ht : StartsOff isSign t) :
    readIgnored? units (c :: m) (c :: (m ++ t)) = none := by
  apply readIgnored?_eq_none_of_splitSign (Numeral.splitSign_cons hc _)
  intro rest hrest
  refine absurd ⟨rest, hrest⟩ (not_cons_prefix_append ?_)
  intro hhead
  rw [ht c hhead] at hc
  cases hc

namespace Numeral

theorem IsWritten.startsOff_isSign_print {n : Numeral} (h : n.IsWritten) (hsign : n.sign = [])
    (rest : Text) : StartsOff isSign (n.print ++ rest) := by
  have hoff := h.startsOff_isSign rest
  rw [print, hsign]
  simpa using hoff

theorem IsWritten.withoutSign {n : Numeral} (h : n.IsWritten) :
    Numeral.IsWritten { n with sign := [] } :=
  ⟨Or.inl rfl, h.whole, h.point, h.fraction, h.filled⟩

theorem print_of_sign {n : Numeral} {c : Char} (h : n.sign = [c]) :
    n.print = c :: Numeral.print { n with sign := [] } := by
  simp [print, h]

end Numeral

namespace Converter

variable {converter : Converter}

/-! ### Marked lengths -/

/-- **A marked length is copied**, without the marker and with the sign in front of it. -/
theorem convertFrom_marked (hmarker : converter.marker ≠ []) {t sign behind b : Text}
    {n : Numeral} {unit : SourceUnit} (hsplit : splitSign t = (sign, converter.marker ++ behind))
    (h : Token.readLength? converter.units behind = some (n, unit, b)) :
    converter.convertFrom .start t =
      sign ++ (n.print ++ unit.name ++ converter.convertFrom (.free .inside) b) := by
  have hread : Token.read? converter.units converter.marker t =
      some (sign, ⟨converter.marker, n, unit⟩, b) := by
    rw [Token.read?, Token.readIgnored?_of_splitSign hmarker hsplit, h]
    rfl
  have hlength : converter.convertToken ⟨converter.marker, n, unit⟩ = n.print ++ unit.name := by
    apply if_pos
    simpa [Token.isIgnored] using hmarker
  rw [convertFrom_of_found ((Value.tokenAt?_start t).trans hread), hlength]

/-- Where no marked length stands the first character stays, or a length is converted. -/
theorem convertFrom_start_cases {c : Char} {t : Text}
    (h : Token.readIgnored? converter.units converter.marker (c :: t) = none) :
    (∃ rest, converter.convertFrom .start (c :: t) = c :: rest) ∨
      ∃ x rest, converter.convertFrom .start (c :: t) = x ++ rest ∧ x.IsConverted ∧
        StartsOff continuesWord rest := by
  have hfound := (Value.tokenAt?_start _).trans (Token.read?_of_readIgnored?_eq_none h)
  rcases hlength : Token.readLength? converter.units (c :: t) with _ | ⟨n, unit, rest⟩
  · rw [hlength] at hfound
    exact Or.inl ⟨_, convertFrom_of_missed hfound⟩
  · rw [hlength] at hfound
    obtain ⟨hwhole, hn, -, hrest⟩ :=
      (Token.readLength?_eq_some_iff converter.isNamed_units).mp hlength
    have hconverted := convertFrom_of_found hfound
    rw [List.nil_append] at hconverted
    rcases converter.convertToken_cases n unit with hstays | hx
    · obtain ⟨d, print, hprint⟩ := List.exists_cons_of_ne_nil hn.print_ne_nil
      rw [hprint] at hwhole
      obtain ⟨rfl, -⟩ := List.cons.inj hwhole
      rw [hstays, hprint] at hconverted
      exact Or.inl ⟨_, hconverted⟩
    · exact Or.inr ⟨_, _, hconverted, hx, startsOff_convertFrom_of_not_isEdge rfl hrest⟩

/-- Nothing, or a text that starts with a space while the marker does not. -/
def IsApart (converter : Converter) (b : Text) : Prop :=
  b = [] ∨ b.head? = some ' ' ∧ converter.marker.head? ≠ some ' '

theorem IsApart.startsOff {b : Text} (h : converter.IsApart b) : StartsOff continuesWord b := by
  rcases h with rfl | ⟨hspace, -⟩
  · exact Text.startsOff_nil _
  · intro c hc
    rw [hspace] at hc
    cases hc
    decide

/-- Behind a length what is apart is converted as if it stood alone. -/
theorem IsApart.convertFrom_inside {b : Text} (h : converter.IsApart b) :
    converter.convertFrom (.free .inside) b = converter.convertValue b := by
  rw [convertValue_eq_convertFrom]
  rcases b with _ | ⟨c, b⟩
  · rw [convertFrom_nil, convertFrom_nil]
  · obtain ⟨hc, hmarker⟩ := h.resolve_left (List.cons_ne_nil c b)
    cases hc
    have hread : Token.read? converter.units converter.marker (' ' :: b) = none :=
      Token.read?_cons_eq_none converter.isNamed_units b (by decide) (by decide) hmarker
    rw [convertFrom_of_missed (Value.tokenAt?_eq_none rfl _),
      convertFrom_of_missed ((Value.tokenAt?_start _).trans hread)]
    rfl

section Length

variable (hmarker : converter.marker ≠ []) {n : Numeral} (hn : n.IsWritten) {unit : SourceUnit}
  (hunit : unit ∈ converter.units) {b : Text} (hb : converter.IsApart b)

include hmarker hn hunit hb

theorem convertValue_of_splitSign {t sign : Text}
    (hsplit : splitSign t = (sign, converter.marker ++ (n.print ++ unit.name ++ b))) :
    converter.convertValue t = sign ++ (n.print ++ unit.name ++ converter.convertValue b) := by
  have hread := readLength?_of_isWritten hn hunit hb.startsOff
  rw [convertValue_eq_convertFrom, convertFrom_marked hmarker hsplit hread,
    hb.convertFrom_inside]

/-- **Behind a sign the marker is found**, whatever it is made of. -/
theorem convertValue_sign_marked {sign : Char} (hsign : isSign sign = true) :
    converter.convertValue (sign :: (converter.marker ++ (n.print ++ unit.name) ++ b)) =
      sign :: (n.print ++ unit.name ++ converter.convertValue b) := by
  rw [List.append_assoc]
  exact convertValue_of_splitSign hmarker hn hunit hb (Numeral.splitSign_cons hsign _)

theorem convertValue_marked_of_startsOff (hsign : StartsOff isSign converter.marker) :
    converter.convertValue (converter.marker ++ (n.print ++ unit.name) ++ b) =
      n.print ++ unit.name ++ converter.convertValue b := by
  have hoff : StartsOff isSign (converter.marker ++ (n.print ++ unit.name ++ b)) :=
    hsign.append fun hempty => absurd hempty hmarker
  rw [List.append_assoc]
  exact convertValue_of_splitSign hmarker hn hunit hb (Numeral.splitSign_of_startsOff hoff)

/-- A marker that is a run of one sign takes the sign of the number for its last one. -/
theorem convertValue_marked_of_replicate {c : Char} {k : Nat} (hsign : n.sign = [c])
    (hrun : converter.marker = List.replicate (k + 1) c) :
    converter.convertValue (converter.marker ++ (n.print ++ unit.name) ++ b) =
      n.print ++ unit.name ++ converter.convertValue b := by
  have hc : isSign c = true := by
    apply isSign_iff.mpr
    simpa [hsign] using hn.sign
  have hturn : converter.marker ++ [c] = c :: converter.marker := by
    rw [hrun, ← List.replicate_succ', List.replicate_succ]
  have hmoved := convertValue_sign_marked hmarker hn.withoutSign hunit hb hc
  rw [Numeral.print_of_sign hsign]
  simpa [← List.append_assoc, hturn, List.append_cons converter.marker c] using hmoved

omit hmarker in
/-- **A marker that starts with a sign is not taken away** from a number without a sign. -/
theorem startsOff_isSign_marker (hsign : n.sign = []) (htarget : unit.name ≠ targetUnit)
    (h : converter.convertValue (converter.marker ++ (n.print ++ unit.name) ++ b) =
      n.print ++ unit.name ++ converter.convertValue b) :
    StartsOff isSign converter.marker := by
  have hunsigned : ∀ rest, StartsOff isSign (n.print ++ unit.name ++ rest) := by
    intro rest
    rw [List.append_assoc]
    exact hn.startsOff_isSign_print hsign _
  rcases hstarts : converter.marker with _ | ⟨c, m⟩
  · exact Text.startsOff_nil _
  apply Text.startsOff_cons.mpr
  by_contra hc
  rw [Bool.not_eq_false] at hc
  have hignored : Token.readIgnored? converter.units converter.marker
      (c :: (m ++ (n.print ++ unit.name ++ b))) = none := by
    rw [hstarts]
    exact Token.readIgnored?_eq_none_of_isSign hc (hunsigned b)
  rw [convertValue_eq_convertFrom, hstarts, List.append_assoc, List.cons_append] at h
  rcases convertFrom_start_cases hignored with ⟨rest, hkept⟩ | ⟨x, rest, hfound, hx, hrest⟩
  · have hfirst := hunsigned (converter.convertValue b)
    rw [← h, hkept, Text.startsOff_cons, hc] at hfirst
    cases hfirst
  · -- What was converted would have to be the length that is expected.
    have hnamed : UnitTable.IsNamed [unit] := by
      simpa [UnitTable.IsNamed] using converter.isNamed_units unit hunit
    have hletters := (isUnitName_iff.mp (converter.isNamed_units unit hunit)).2
    have hbehind : StartsOff continuesWord (converter.convertValue b) := by
      rw [← hb.convertFrom_inside]
      exact startsOff_convertFrom_of_not_isEdge rfl hb.startsOff
    rw [hfound] at h
    obtain ⟨hsame, -⟩ :=
      hx.isSignedWord.cut_unique (hn.isSignedWord_append hletters) hrest hbehind h
    exact hx.ne_length hnamed (by simpa using htarget) (Or.inl rfl) hn
      (List.mem_singleton_self unit) hsame.symm

/-- **A marked number is copied** if a sign stands in front of the marker, and also if none
    does, unless the marker starts with a sign: such a marker is taken away from numbers that
    go on with its one sign, and from no number without a sign. -/
theorem convertValue_marked :
    let length := n.print ++ unit.name
    let marked := converter.marker ++ length ++ b
    (∀ sign, isSign sign = true →
        converter.convertValue (sign :: marked) = sign :: (length ++ converter.convertValue b)) ∧
      (StartsOff isSign converter.marker ∨
          (∃ c k, n.sign = [c] ∧ converter.marker = List.replicate (k + 1) c) →
        converter.convertValue marked = length ++ converter.convertValue b) ∧
        (n.sign = [] → unit.name ≠ targetUnit →
          converter.convertValue marked = length ++ converter.convertValue b →
            StartsOff isSign converter.marker) := by
  refine ⟨?_, ?_, ?_⟩
  · intro sign hsign
    exact convertValue_sign_marked hmarker hn hunit hb hsign
  · rintro (hoff | ⟨c, k, hsign, hrun⟩)
    · exact convertValue_marked_of_startsOff hmarker hn hunit hb hoff
    · exact convertValue_marked_of_replicate hmarker hn hunit hb hsign hrun
  · intro hsign htarget hcopied
    exact startsOff_isSign_marker hn hunit hb hsign htarget hcopied

end Length

/-- Where the marker is a plus sign, a sign in front of it, or of the number behind it, makes
    it a marker; without one it is taken for the sign of the number. -/
theorem convertValue_marked_plus :
    let converter := ofOptions { ignoreIdentifier := some ['+'] }
    let five : Numeral := ⟨[], ['5'], [], []⟩
    let signed : Numeral := ⟨['+'], ['5'], [], []⟩
    (converter.marker ≠ [] ∧ five.IsWritten ∧ signed.IsWritten ∧
      (∃ unit ∈ converter.units, unit.name = ['p', 'x']) ∧ converter.IsApart " 5px".toList) ∧
      converter.convertValue "-+5px 5px".toList = "-5px 0.05em".toList ∧
        converter.convertValue "++5px 5px".toList = "+5px 0.05em".toList ∧
          converter.convertValue "+5px 5px".toList ≠ "5px 0.05em".toList := by
  intro converter five signed
  have hmarker : converter.marker ≠ [] := List.cons_ne_nil _ _
  have hfive : five.IsWritten := by decide
  have hsigned : signed.IsWritten := by decide
  have hpx : ∃ unit ∈ converter.units, unit.name = ['p', 'x'] := by decide +kernel
  have hb : converter.IsApart " 5px".toList := Or.inr ⟨rfl, by decide⟩
  have hbehind : converter.convertValue " 5px".toList = " 0.05em".toList := by decide +kernel
  refine ⟨⟨hmarker, hfive, hsigned, hpx, hb⟩, ?_⟩
  obtain ⟨unit, hunit, hname⟩ := hpx
  have hunsigned := convertValue_marked hmarker hfive hunit hb
  have hplus := convertValue_marked hmarker hsigned hunit hb
  rw [hname, hbehind] at hunsigned hplus
  refine ⟨hunsigned.1 '-' rfl, hplus.2.1 (Or.inr ⟨'+', 0, rfl, rfl⟩), ?_⟩
  intro hcopied
  exact absurd (hunsigned.2.2 rfl (by decide) hcopied) (by decide)

/-- The number behind this marker is converted together with it. -/
theorem not_copied_of_plus_marker :
    let converter := ofOptions { ignoreIdentifier := some ['+'] }
    let five : Numeral := ⟨[], ['5'], [], []⟩
    (converter.marker ≠ [] ∧ five.IsWritten ∧ converter.IsApart []) ∧
      ∃ unit ∈ converter.units, five.print ++ unit.name = "5px".toList ∧
        converter.convertValue (converter.marker ++ (five.print ++ unit.name) ++ []) =
          "0.05em".toList ∧
        converter.convertValue (converter.marker ++ (five.print ++ unit.name) ++ []) ≠
          five.print ++ unit.name ++ converter.convertValue [] := by
  intro converter five
  exact ⟨⟨List.cons_ne_nil _ _, by decide, Or.inl rfl⟩, by decide +kernel⟩

end Converter

end EmScale
