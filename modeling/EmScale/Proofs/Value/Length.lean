/-
  EmScale/Proofs/Value/Length.lean
  ================================
  **Which lengths a text starts with.**

  A length is a written numeral and the name of a unit, and the word ends behind it
  (`Token.readLength?_eq_some_iff`).  But for a plus sign in front it is a whole word, so
  whether a text starts with a length shows in its first word alone
  (`Token.readLength?_append_iff`).

  With an ignore marker in front a length may be two words, since its number may have a plus
  sign behind the marker.  So a text is read alike in front of whatever starts neither with
  a character of words nor with a length (`Token.read?_append`).
-/
import EmScale.Proofs.Number.Numeral
import EmScale.Proofs.Units
import EmScale.Value.Token

namespace EmScale

open Text (StartsOff)

/-! ### Words -/

/-- The characters of lengths. -/
def isLengthCharacter (c : Char) : Bool :=
  c.isAlphanum || c == '+' || c == '-' || c == '.'

theorem toNat_of_isAlphanum {c : Char} (h : c.isAlphanum = true) :
    (48 ≤ c.toNat ∧ c.toNat ≤ 57) ∨ (65 ≤ c.toNat ∧ c.toNat ≤ 90) ∨
      (97 ≤ c.toNat ∧ c.toNat ≤ 122) := by
  simp only [Char.isAlphanum, Char.isAlpha, Char.isUpper, Char.isLower, Char.isDigit,
    Bool.or_eq_true, Bool.and_eq_true, decide_eq_true_eq, ge_iff_le, UInt32.le_iff_toNat_le] at h
  have hn : c.toNat = c.val.toNat := rfl
  simp at h
  omega

theorem continuesWord_of_isAlphanum {c : Char} (h : c.isAlphanum = true) :
    continuesWord c = true := by
  have hsmall : c.toNat < 128 := by
    have := toNat_of_isAlphanum h
    omega
  simp [continuesWord, Unicode.isAlphanumeric, hsmall, h]

theorem not_isWhiteSpace_of_isLengthCharacter {c : Char} (h : isLengthCharacter c = true) :
    Unicode.isWhiteSpace c = false := by
  simp only [isLengthCharacter, Bool.or_eq_true, beq_iff_eq] at h
  rcases h with ((h | rfl) | rfl) | rfl
  · have := toNat_of_isAlphanum h
    simp only [Unicode.isWhiteSpace, Bool.or_eq_false_iff, Bool.and_eq_false_iff,
      decide_eq_false_iff_not, beq_eq_false_iff_ne]
    omega
  · decide
  · decide
  · decide

/-- Letters, digits, signs and points, and at least one of them. -/
def Text.IsLengthLike (t : Text) : Prop :=
  t ≠ [] ∧ ∀ c ∈ t, isLengthCharacter c = true

theorem Text.IsLengthLike.startsOff_isWhiteSpace {t : Text} (h : t.IsLengthLike) (b : Text) :
    StartsOff Unicode.isWhiteSpace (t ++ b) := by
  rcases t with _ | ⟨c, t⟩
  · exact absurd rfl h.1
  · exact Text.startsOff_cons.mpr (not_isWhiteSpace_of_isLengthCharacter (h.2 c (by simp)))

theorem Text.IsLengthLike.isTight {t : Text} (h : t.IsLengthLike) : t.IsTight := by
  rcases List.eq_nil_or_concat t with hnil | ⟨front, c, hlast⟩
  · exact absurd hnil h.1
  · rw [hlast, List.concat_eq_append, Text.isTight_append_iff (by simp), Text.isTight_singleton]
    exact not_isWhiteSpace_of_isLengthCharacter (h.2 c (by simp [hlast]))

/-- A word as lengths are: characters that words go on with, and maybe a plus sign in front
    of them. -/
def Text.IsSignedWord : Text → Prop
  | [] => False
  | c :: w => (c = '+' ∨ continuesWord c = true) ∧ ∀ d ∈ w, continuesWord d = true

/-- **The first word of a text is determined.** -/
theorem Text.IsSignedWord.cut_unique {x y b b' : Text} (hx : x.IsSignedWord)
    (hy : y.IsSignedWord) (hb : StartsOff continuesWord b) (hb' : StartsOff continuesWord b')
    (h : x ++ b = y ++ b') : x = y ∧ b = b' := by
  rcases x with _ | ⟨c, w⟩
  · exact hx.elim
  rcases y with _ | ⟨d, v⟩
  · exact hy.elim
  simp only [List.cons_append, List.cons.injEq] at h
  obtain ⟨rfl, h⟩ := h
  obtain ⟨htake, hdrop⟩ := Text.takeWhile_append_of_startsOff hx.2 hb
  obtain ⟨htake', hdrop'⟩ := Text.takeWhile_append_of_startsOff hy.2 hb'
  rw [h] at htake hdrop
  exact ⟨by rw [← htake, htake'], by rw [← hdrop, hdrop']⟩

theorem continuesWord_of_isDigit {c : Char} (h : c.isDigit = true) : continuesWord c = true :=
  continuesWord_of_isAlphanum (by simp [Char.isAlphanum, h])

theorem continuesWord_of_isAlpha {c : Char} (h : c.isAlpha = true) : continuesWord c = true :=
  continuesWord_of_isAlphanum (by simp [Char.isAlphanum, h])

theorem head?_ne_of_continuesWord {t : Text} (h : ∀ c ∈ t, continuesWord c = true) {c : Char}
    (hc : continuesWord c = false) : t.head? ≠ some c := by
  intro hhead
  rw [h c (List.mem_of_mem_head? hhead)] at hc
  cases hc

/-! ### Lengths -/

namespace Numeral

theorem IsWritten.isSignedWord_append {n : Numeral} (h : n.IsWritten) {name : Text}
    (hname : ∀ c ∈ name, c.isAlpha = true) : (n.print ++ name).IsSignedWord := by
  have hbody : ∀ c ∈ n.whole ++ (n.point ++ (n.fraction ++ name)), continuesWord c = true := by
    intro c hc
    simp only [List.mem_append] at hc
    rcases hc with hc | hc | hc | hc
    · exact continuesWord_of_isDigit (h.whole c hc)
    · rcases h.point with ⟨hpoint, -⟩ | hpoint <;> rw [hpoint] at hc
      · cases hc
      · rw [List.mem_singleton.mp hc]
        decide
    · exact continuesWord_of_isDigit (h.fraction c hc)
    · exact continuesWord_of_isAlpha (hname c hc)
  have hprint : n.print ++ name = n.sign ++ (n.whole ++ (n.point ++ (n.fraction ++ name))) := by
    simp [print]
  rw [hprint]
  rcases h.sign with hsign | hsign | hsign <;> rw [hsign]
  · rcases hwhole : n.whole ++ (n.point ++ (n.fraction ++ name)) with _ | ⟨c, w⟩
    · simp only [List.append_eq_nil_iff] at hwhole
      exact absurd ⟨hwhole.1, hwhole.2.2.1⟩ h.filled
    · rw [hwhole] at hbody
      exact ⟨Or.inr (hbody c (by simp)), fun d hd => hbody d (by simp [hd])⟩
  · exact ⟨Or.inl rfl, hbody⟩
  · exact ⟨Or.inr (by decide), hbody⟩

theorem IsWritten.isLengthLike_append {n : Numeral} (h : n.IsWritten) {name : Text}
    (hne : name ≠ []) (hname : ∀ c ∈ name, c.isAlpha = true) :
    (n.print ++ name).IsLengthLike := by
  constructor
  · simp [hne]
  · intro c hc
    rcases List.mem_append.mp hc with hc | hc
    · have hcharacter := h.isCharacter c hc
      simp only [Numeral.isCharacter, Bool.or_eq_true] at hcharacter
      rcases hcharacter with ((hdigit | hplus) | hminus) | hpoint
      · simp [isLengthCharacter, Char.isAlphanum, hdigit]
      · simp [isLengthCharacter, hplus]
      · simp [isLengthCharacter, hminus]
      · simp [isLengthCharacter, hpoint]
    · simp [isLengthCharacter, Char.isAlphanum, hname c hc]

theorem endsBefore_of_isAlpha (n : Numeral) {name : Text} (rest : Text) (hne : name ≠ [])
    (hname : ∀ c ∈ name, c.isAlpha = true) : n.EndsBefore (name ++ rest) := by
  rcases name with _ | ⟨c, name⟩
  · exact absurd rfl hne
  have hc : c.isAlpha = true := hname c (by simp)
  constructor
  · apply Text.startsOff_cons.mpr
    by_contra hdigit
    simp only [Char.isAlpha, Char.isUpper, Char.isLower, Char.isDigit, Bool.or_eq_true,
      Bool.and_eq_true, decide_eq_true_eq, ge_iff_le, UInt32.le_iff_toNat_le] at hc hdigit
    simp at hc hdigit
    omega
  · intro _
    apply Text.startsOff_cons.mpr
    rcases eq_or_ne c '.' with rfl | hne
    · cases hc
    · simpa using hne

end Numeral

namespace Token

theorem endsBefore_iff {t : Text} : endsBefore t = true ↔ StartsOff continuesWord t := by
  cases t <;> simp [endsBefore]

variable {units : UnitTable}

theorem readIgnored?_of_splitSign {marker t sign rest : Text} (hne : marker ≠ [])
    (h : splitSign t = (sign, marker ++ rest)) :
    readIgnored? units marker t =
      (readLength? units rest).map fun (n, unit, behind) => (sign, ⟨marker, n, unit⟩, behind) := by
  simp [readIgnored?, h, hne]

theorem readIgnored?_eq_none_of_splitSign {marker t sign unsigned : Text}
    (h : splitSign t = (sign, unsigned))
    (hnone : ∀ rest, marker ++ rest = unsigned → readLength? units rest = none) :
    readIgnored? units marker t = none := by
  simp only [readIgnored?, h]
  split
  · rename_i hmarked
    simp only [Bool.and_eq_true, List.isPrefixOf_iff_prefix] at hmarked
    obtain ⟨-, rest, hrest⟩ := hmarked
    rw [← hrest, List.drop_left, hnone rest hrest]
    rfl
  · rfl

theorem read?_of_readIgnored?_eq_none {marker t : Text}
    (h : readIgnored? units marker t = none) :
    read? units marker t =
      (readLength? units t).map fun (n, unit, rest) => ([], ⟨[], n, unit⟩, rest) := by
  rw [read?, h]

section Table

variable (hunits : units.IsNamed)

include hunits

/-- **A text starts with exactly the lengths that end there.** -/
theorem readLength?_eq_some_iff {t rest : Text} {n : Numeral} {unit : SourceUnit} :
    readLength? units t = some (n, unit, rest) ↔
      n.print ++ unit.name ++ rest = t ∧ n.IsWritten ∧ units.startOf? unit.name = some unit ∧
        StartsOff continuesWord rest := by
  constructor
  · intro h
    refine ⟨append_of_readLength? h, ?_⟩
    simp only [readLength?, Option.bind_eq_bind, Option.bind_eq_some_iff, Prod.exists] at h
    obtain ⟨n', behind, hnumeral, unit', hunit, h⟩ := h
    split at h
    · rename_i hends
      cases h
      have hrest := endsBefore_iff.mp hends
      obtain ⟨rest, rfl⟩ := UnitTable.prefix_of_startOf? hunit
      rw [List.drop_left] at hrest
      rw [UnitTable.startOf?_append hunits (hrest.mono fun _ => continuesWord_of_isAlpha)] at hunit
      exact ⟨(Numeral.read?_eq_some_iff.mp hnumeral).2.1, hunit, by simpa using hrest⟩
    · cases h
  · rintro ⟨rfl, hwritten, hunit, hrest⟩
    obtain ⟨hne, hletters⟩ := isUnitName_iff.mp (hunits unit (UnitTable.mem_of_startOf? hunit))
    have hnumeral := Numeral.read?_eq_some_iff.mpr
      ⟨rfl, hwritten, n.endsBefore_of_isAlpha rest hne hletters⟩
    have hbehind : units.startOf? (unit.name ++ rest) = some unit := by
      rw [UnitTable.startOf?_append hunits (hrest.mono fun _ => continuesWord_of_isAlpha), hunit]
    simp only [readLength?, List.append_assoc, hnumeral, Option.bind_eq_bind, Option.bind_some,
      hbehind, List.drop_left, endsBefore_iff.mpr hrest, if_true]

theorem isSignedWord_of_written {n : Numeral} {unit : SourceUnit} (hwritten : n.IsWritten)
    (hunit : units.startOf? unit.name = some unit) : (n.print ++ unit.name).IsSignedWord :=
  hwritten.isSignedWord_append
    (isUnitName_iff.mp (hunits unit (UnitTable.mem_of_startOf? hunit))).2

/-- **Whether a text starts with a length shows in its first word.** -/
theorem readLength?_append_iff {x b rest : Text} {n : Numeral} {unit : SourceUnit}
    (hx : x.IsSignedWord) (hb : StartsOff continuesWord b) :
    readLength? units (x ++ b) = some (n, unit, rest) ↔
      n.print ++ unit.name = x ∧ rest = b ∧ n.IsWritten ∧
        units.startOf? unit.name = some unit := by
  rw [readLength?_eq_some_iff hunits]
  constructor
  · rintro ⟨hwhole, hwritten, hunit, hrest⟩
    obtain ⟨hlength, hbehind⟩ :=
      (isSignedWord_of_written hunits hwritten hunit).cut_unique hx hrest hb hwhole
    exact ⟨hlength, hbehind, hwritten, hunit⟩
  · rintro ⟨rfl, rfl, hwritten, hunit⟩
    exact ⟨rfl, hwritten, hunit, hb⟩

theorem readLength?_append_eq_none {x b b' : Text} (hx : x.IsSignedWord)
    (hb : StartsOff continuesWord b) (hb' : StartsOff continuesWord b')
    (h : readLength? units (x ++ b) = none) : readLength? units (x ++ b') = none := by
  rw [Option.eq_none_iff_forall_ne_some] at h ⊢
  rintro ⟨n, unit, rest⟩ hread
  obtain ⟨hlength, rfl, hwritten, hunit⟩ := (readLength?_append_iff hunits hx hb').mp hread
  exact h (n, unit, b) ((readLength?_append_iff hunits hx hb).mpr ⟨hlength, rfl, hwritten, hunit⟩)

theorem readLength?_append_of_eq_none {t b : Text} (ht : t ≠ []) (hb : StartsOff continuesWord b)
    (h : readLength? units t = none) : readLength? units (t ++ b) = none := by
  rw [Option.eq_none_iff_forall_ne_some] at h ⊢
  rintro ⟨n, unit, rest⟩ hread
  obtain ⟨hwhole, hwritten, hunit, hrest⟩ := (readLength?_eq_some_iff hunits).mp hread
  have hword := isSignedWord_of_written hunits hwritten hunit
  have hshort : ∀ {behind : Text}, n.print ++ unit.name ++ behind = t →
      StartsOff continuesWord behind → False := fun hlength hbehind =>
    h (n, unit, _) ((readLength?_eq_some_iff hunits).mpr ⟨hlength, hwritten, hunit, hbehind⟩)
  rcases List.append_eq_append_iff.mp hwhole with ⟨behind, hlength, rfl⟩ | ⟨more, hlength, rfl⟩
  · exact hshort hlength.symm hrest.of_append
  · rcases more with _ | ⟨d, more⟩
    · rw [List.append_nil] at hlength
      exact hshort (by rw [hlength, List.append_nil]) (Text.startsOff_nil _)
    · rcases t with _ | ⟨c, t⟩
      · exact ht rfl
      · rw [hlength] at hword
        have hd : continuesWord d = true := hword.2 d (by simp)
        rw [Text.startsOff_cons.mp hb] at hd
        cases hd

/-- **A length is read alike** in front of whatever the word does not go on with. -/
theorem readLength?_append {t b : Text} (ht : t ≠ []) (hb : StartsOff continuesWord b) :
    readLength? units (t ++ b) =
      (readLength? units t).map fun (n, unit, rest) => (n, unit, rest ++ b) := by
  rcases hread : readLength? units t with _ | ⟨n, unit, rest⟩
  · exact readLength?_append_of_eq_none hunits ht hb hread
  · obtain ⟨rfl, hwritten, hunit, hrest⟩ := (readLength?_eq_some_iff hunits).mp hread
    apply (readLength?_eq_some_iff hunits).mpr
    exact ⟨(List.append_assoc _ rest b).symm, hwritten, hunit, hrest.append fun _ => hb⟩

theorem readLength?_cons_eq_none {c : Char} (t : Text) (hplus : c ≠ '+')
    (hc : continuesWord c = false) : readLength? units (c :: t) = none := by
  rw [Option.eq_none_iff_forall_ne_some]
  rintro ⟨n, unit, rest⟩ hread
  obtain ⟨hwhole, hwritten, hunit, -⟩ := (readLength?_eq_some_iff hunits).mp hread
  have hword := isSignedWord_of_written hunits hwritten hunit
  rcases hlength : n.print ++ unit.name with _ | ⟨d, w⟩
  · rw [hlength] at hword
    exact hword
  · rw [hlength] at hword hwhole
    cases hwhole
    rcases hword.1 with rfl | hd
    · exact hplus rfl
    · rw [hc] at hd
      cases hd

/-- A word without digits is no length. -/
theorem readLength?_eq_none_of_isDigit {x b : Text} (hx : x.IsSignedWord)
    (hdigit : ∀ c ∈ x, c.isDigit = false) (hb : StartsOff continuesWord b) :
    readLength? units (x ++ b) = none := by
  rw [Option.eq_none_iff_forall_ne_some]
  rintro ⟨n, unit, rest⟩ hread
  obtain ⟨rfl, -, hwritten, -⟩ := (readLength?_append_iff hunits hx hb).mp hread
  obtain ⟨c, hc, hcdigit⟩ := hwritten.exists_isDigit
  have hnone := hdigit c (List.mem_append_left _ hc)
  rw [hcdigit] at hnone
  cases hnone

theorem readLength?_plus_eq_none {b : Text} (hb : StartsOff continuesWord b) :
    readLength? units ('+' :: b) = none := by
  have hplus : Text.IsSignedWord ['+'] := ⟨Or.inl rfl, by simp⟩
  exact readLength?_eq_none_of_isDigit hunits hplus (by simp) hb

/-! ### Marked lengths -/

/-- Neither a marked length nor another one starts with a character that is neither a sign nor
    one of words, if the marker does not. -/
theorem read?_cons_eq_none {marker : Text} {c : Char} (t : Text) (hplus : c ≠ '+')
    (hc : continuesWord c = false) (hmarker : marker.head? ≠ some c) :
    read? units marker (c :: t) = none := by
  have hsign : StartsOff isSign (c :: t) := by
    apply Text.startsOff_cons.mpr
    by_contra hsign
    rcases isSign_iff.mp (by simpa using hsign) with rfl | rfl
    · exact hplus rfl
    · exact absurd hc (by decide)
  have hignored : readIgnored? units marker (c :: t) = none := by
    rcases marker with _ | ⟨d, marker⟩
    · simp [readIgnored?]
    · apply readIgnored?_eq_none_of_splitSign (Numeral.splitSign_of_startsOff hsign)
      rintro rest hrest
      obtain ⟨rfl, -⟩ := List.cons.inj hrest
      exact absurd rfl hmarker
  rw [read?_of_readIgnored?_eq_none hignored, readLength?_cons_eq_none hunits t hplus hc]
  rfl

variable {marker : Text} (hmarker : ∀ c ∈ marker, continuesWord c = true)

include hmarker

theorem readIgnored?_append {t b : Text} (ht : t ≠ []) (hb : StartsOff continuesWord b)
    (hstart : marker = [] ∨ readLength? units b = none) :
    readIgnored? units marker (t ++ b) =
      (readIgnored? units marker t).map fun (lead, token, rest) => (lead, token, rest ++ b) := by
  obtain ⟨hsign, hunsigned⟩ := Numeral.splitSign_append_of_ne_nil ht b
  simp only [readIgnored?, hsign, hunsigned]
  have hmarks : marker.isPrefixOf ((splitSign t).2 ++ b) = marker.isPrefixOf (splitSign t).2 := by
    rw [Bool.eq_iff_iff, List.isPrefixOf_iff_prefix, List.isPrefixOf_iff_prefix]
    exact Text.prefix_append_iff hmarker hb
  rw [hmarks]
  split
  · rename_i hmarked
    simp only [Bool.and_eq_true, Bool.not_eq_true', List.isEmpty_eq_false_iff,
      List.isPrefixOf_iff_prefix] at hmarked
    obtain ⟨hne, behind, hbehind⟩ := hmarked
    rw [← hbehind, List.append_assoc, List.drop_left, List.drop_left]
    rcases eq_or_ne behind [] with rfl | hfilled
    · -- Nothing stands behind the marker, so a length would have to start with `b`.
      rw [List.nil_append, hstart.resolve_left hne]
      rfl
    · rw [readLength?_append hunits hfilled hb]
      cases readLength? units behind <;> rfl
  · rfl

/-- **A text is read alike** in front of whatever starts neither with a character of words nor
    with a length. -/
theorem read?_append {t b : Text} (ht : t ≠ []) (hb : StartsOff continuesWord b)
    (hstart : marker = [] ∨ readLength? units b = none) :
    read? units marker (t ++ b) =
      (read? units marker t).map fun (lead, token, rest) => (lead, token, rest ++ b) := by
  unfold read?
  rw [readIgnored?_append hunits hmarker ht hb hstart, readLength?_append hunits ht hb]
  cases readIgnored? units marker t with
  | some found => rfl
  | none => cases readLength? units t <;> rfl

/-! ### Words without digits -/

omit hmarker in
theorem readLength?_word_eq_none {x b : Text}
    (hx : ∀ c ∈ x, continuesWord c = true ∧ c.isDigit = false) (hb : StartsOff continuesWord b)
    (hnone : readLength? units b = none) : readLength? units (x ++ b) = none := by
  rcases x with _ | ⟨c, x⟩
  · exact hnone
  · have hword : Text.IsSignedWord (c :: x) :=
      ⟨Or.inr (hx c (by simp)).1, fun d hd => (hx d (by simp [hd])).1⟩
    exact readLength?_eq_none_of_isDigit hunits hword (fun d hd => (hx d hd).2) hb

/-- A marker may take the start of a word away, and what is left is a word without digits. -/
theorem readIgnored?_word_eq_none {t sign x b : Text} (hsplit : splitSign t = (sign, x ++ b))
    (hx : ∀ c ∈ x, continuesWord c = true ∧ c.isDigit = false) (hb : StartsOff continuesWord b)
    (hnone : readLength? units b = none) : readIgnored? units marker t = none := by
  apply readIgnored?_eq_none_of_splitSign hsplit
  intro rest hrest
  rcases List.append_eq_append_iff.mp hrest with ⟨more, rfl, rfl⟩ | ⟨more, hlonger, rfl⟩
  · exact readLength?_word_eq_none hunits (fun c hc => hx c (by simp [hc])) hb hnone
  · rcases more with _ | ⟨c, more⟩
    · exact hnone
    · have hc := hmarker c (by simp [hlonger])
      rw [List.cons_append, Text.startsOff_cons, hc] at hb
      cases hb

/-- **No length starts in a word without digits**, marked or not. -/
theorem read?_word_eq_none {x b : Text} (hsign : StartsOff isSign (x ++ b))
    (hx : ∀ c ∈ x, continuesWord c = true ∧ c.isDigit = false) (hb : StartsOff continuesWord b)
    (hnone : readLength? units b = none) : read? units marker (x ++ b) = none := by
  have hsplit := Numeral.splitSign_of_startsOff hsign
  rw [read?_of_readIgnored?_eq_none
    (readIgnored?_word_eq_none hunits hmarker hsplit hx hb hnone),
    readLength?_word_eq_none hunits hx hb hnone]
  rfl

/-- **None starts in front of such a word either**, with a character that is none of words. -/
theorem read?_cons_word_eq_none {d : Char} (hd : continuesWord d = false) {x b : Text}
    (hx : ∀ c ∈ x, continuesWord c = true ∧ c.isDigit = false) (hb : StartsOff continuesWord b)
    (hnone : readLength? units b = none) :
    readLength? units (d :: (x ++ b)) = none ∧ read? units marker (d :: (x ++ b)) = none := by
  by_cases hplus : d = '+'
  · subst hplus
    have hword : Text.IsSignedWord ('+' :: x) := ⟨Or.inl rfl, fun c hc => (hx c hc).1⟩
    have hdigit : ∀ c ∈ '+' :: x, c.isDigit = false := by
      rw [List.forall_mem_cons]
      exact ⟨by decide, fun c hc => (hx c hc).2⟩
    have hlength : readLength? units ('+' :: (x ++ b)) = none :=
      readLength?_eq_none_of_isDigit hunits hword hdigit hb
    have hignored : readIgnored? units marker ('+' :: (x ++ b)) = none :=
      readIgnored?_word_eq_none hunits hmarker rfl hx hb hnone
    refine ⟨hlength, ?_⟩
    rw [read?_of_readIgnored?_eq_none hignored, hlength]
    rfl
  · have hhead := head?_ne_of_continuesWord hmarker hd
    exact ⟨readLength?_cons_eq_none hunits _ hplus hd,
      read?_cons_eq_none hunits _ hplus hd hhead⟩

end Table

end Token

end EmScale
