/-
  EmScale/Proofs/Converter/Divider.lean
  =====================================
  **What divides a value into parts that are converted on their own.**

  A blank, a whole string and a whole `url()` lead a scan back to where it started, and no
  length starts in them (`Region.hides_quoted`, `Region.hides_url`).  No length goes across
  the place in front of them either.  So where one of them stands between two parts of a
  value and nothing is open in front of it, each part is converted as if it stood alone
  (`Converter.convertValue_append_divider`).  An ignore marker may reach across such a place
  unless it is made of characters that words go on with.
-/
import EmScale.Proofs.Converter.Value
import EmScale.Proofs.Value.Occurrence

namespace EmScale

open Text (StartsOff)

/-! ### Blanks, strings and arguments -/

/-- The code points of blanks. -/
def blankCodes : List Nat :=
  List.range' 0x9 5 ++ [0x20, 0x85, 0xA0, 0x1680] ++ List.range' 0x2000 11 ++
    [0x2028, 0x2029, 0x202F, 0x205F, 0x3000]

theorem mem_blankCodes {c : Char} (h : Unicode.isWhiteSpace c = true) : c.toNat ∈ blankCodes := by
  simp only [Unicode.isWhiteSpace, Bool.or_eq_true, Bool.and_eq_true, decide_eq_true_eq,
    beq_iff_eq] at h
  simp only [blankCodes, List.mem_append, List.mem_range'_1, List.mem_cons]
  omega

/-- Whether no range has one of these code points. -/
def Unicode.Ranges.avoids (table : Ranges) (codes : List Nat) : Bool :=
  table.toList.all fun range => codes.all fun n => !(range.1 ≤ n && n ≤ range.2)

theorem Unicode.Ranges.holds_eq_false {table : Ranges} {codes : List Nat}
    (h : table.avoids codes = true) {c : Char} (hc : c.toNat ∈ codes) :
    table.holds c = false := by
  rw [holds, ← Array.any_toList, List.any_eq_false]
  intro range hrange
  have hn := List.all_eq_true.mp (List.all_eq_true.mp h range hrange) _ hc
  rw [Bool.not_eq_true'] at hn
  rw [hn]
  exact Bool.false_ne_true

theorem not_isAlphanumeric_of_isWhiteSpace {c : Char} (h : Unicode.isWhiteSpace c = true) :
    Unicode.isAlphanumeric c = false := by
  have hcode := mem_blankCodes h
  unfold Unicode.isAlphanumeric
  split
  · by_contra halphanum
    have hplain : isLengthCharacter c = true := by
      simp [isLengthCharacter, (Bool.not_eq_false _).mp halphanum]
    rw [not_isWhiteSpace_of_isLengthCharacter hplain] at h
    cases h
  · rw [Unicode.Ranges.holds_eq_false (by decide +kernel) hcode,
      Unicode.Ranges.holds_eq_false (by decide +kernel) hcode,
      Unicode.Ranges.holds_eq_false (by decide +kernel) hcode]
    rfl

/-- No word goes on with a blank. -/
theorem not_continuesWord_of_isWhiteSpace {c : Char} (h : Unicode.isWhiteSpace c = true) :
    continuesWord c = false := by
  have hother : c ≠ '_' ∧ c ≠ '-' ∧ c ≠ '.' ∧ c ≠ '#' ∧ c ≠ '\\' := by
    refine ⟨?_, ?_, ?_, ?_, ?_⟩ <;> rintro rfl <;> exact absurd h (by decide)
  obtain ⟨hunderscore, hminus, hpoint, hhash, hslash⟩ := hother
  simp [continuesWord, not_isAlphanumeric_of_isWhiteSpace h, hunderscore, hminus, hpoint, hhash,
    hslash]

abbrev IsQuote (c : Char) : Prop :=
  c = '\'' ∨ c = '"'

/-- The inside of a string: a backslash takes the next character with it, and otherwise the
    quote does not occur. -/
inductive IsStringBody (quote : Char) : Text → Prop where
  | nil : IsStringBody quote []
  | escaped (c : Char) {t : Text} : IsStringBody quote t → IsStringBody quote ('\\' :: c :: t)
  | plain {c : Char} {t : Text} : c ≠ quote → c ≠ '\\' → IsStringBody quote t →
      IsStringBody quote (c :: t)

/-- The inside of `url()`: strings, escaped characters, and others but closing parentheses. -/
inductive IsArgument : Text → Prop where
  | nil : IsArgument []
  | escaped (c : Char) {t : Text} : IsArgument t → IsArgument ('\\' :: c :: t)
  | string {quote : Char} {body t : Text} : IsQuote quote → IsStringBody quote body →
      IsArgument t → IsArgument (quote :: (body ++ quote :: t))
  | plain {c : Char} {t : Text} : ¬ IsQuote c → c ≠ '\\' → c ≠ ')' → IsArgument t →
      IsArgument (c :: t)

/-- What divides a value behind `front`: a blank, a string, or, where a word may start, a
    `url()`. -/
inductive Divides (front : Text) : Text → Prop where
  | blank {c : Char} : Unicode.isWhiteSpace c = true → Divides front [c]
  | string {quote : Char} {body : Text} : IsQuote quote → IsStringBody quote body →
      Divides front (quote :: (body ++ [quote]))
  | url {argument : Text} : (∀ c ∈ front.getLast?, continuesWord c = false) →
      IsArgument argument → Divides front (['u', 'r', 'l', '('] ++ argument ++ [')'])

theorem IsQuote.ne_backslash {c : Char} (h : IsQuote c) : c ≠ '\\' := by
  rcases h with rfl | rfl <;> decide

theorem IsQuote.not_continuesWord {c : Char} (h : IsQuote c) :
    continuesWord c = false ∧ c ≠ '+' := by
  rcases h with rfl | rfl <;> decide

/-! ### Passing through strings and arguments -/

/-- The inside of a string is passed through in any region that only its quote leads out of. -/
theorem IsStringBody.hides {quote : Char} {body : Text} (h : IsStringBody quote body)
    {r pending : Region} (hr : r.isEdge = false) (hpending : pending.isEdge = false)
    (hslash : r.step '\\' = pending) (hback : ∀ c, pending.step c = r)
    (hplain : ∀ c, c ≠ quote → c ≠ '\\' → r.step c = r) : r.Hides body ∧ r.run body = r := by
  induction h with
  | nil => exact ⟨trivial, rfl⟩
  | escaped c _ ih =>
    simp only [Region.Hides, Region.run_cons, hslash, hback]
    exact ⟨⟨hr, hpending, ih.1⟩, ih.2⟩
  | plain hquote hbackslash _ ih =>
    simp only [Region.Hides, Region.run_cons, hplain _ hquote hbackslash]
    exact ⟨⟨hr, ih.1⟩, ih.2⟩

namespace Region

variable {quote : Char} {body argument : Text}

theorem hides_url_quoted (h : IsStringBody quote body) :
    (url (some quote)).Hides body ∧ (url (some quote)).run body = url (some quote) := by
  have hslash : (url (some quote)).step '\\' = urlEscape (some quote) := by simp [step]
  have hback : ∀ c, (urlEscape (some quote)).step c = url (some quote) := fun _ => rfl
  apply h.hides rfl rfl hslash hback
  intro c hquote hslash
  rw [step, if_neg hslash, if_neg hquote]

/-- **A string is passed through** behind its opening quote. -/
theorem hides_quoted (hquote : IsQuote quote) (h : IsStringBody quote body) :
    (quoted quote).Hides (body ++ [quote]) ∧ (quoted quote).run (body ++ [quote]) = start := by
  have hslash : (quoted quote).step '\\' = quotedEscape quote := by simp [step]
  have hback : ∀ c, (quotedEscape quote).step c = quoted quote := fun _ => rfl
  have hplain : ∀ c, c ≠ quote → c ≠ '\\' → (quoted quote).step c = quoted quote := by
    intro c hquote hslash
    rw [step, if_neg hslash, if_neg hquote]
  obtain ⟨hhides, hrun⟩ := h.hides rfl rfl hslash hback hplain
  have hclose : (quoted quote).step quote = start := by
    rw [step, if_neg hquote.ne_backslash, if_pos rfl]
    rfl
  constructor
  · rw [hides_append, hrun]
    exact ⟨hhides, rfl, trivial⟩
  · rw [run_append, hrun, run_cons, run_nil, hclose]

theorem hides_argument (h : IsArgument argument) :
    (url none).Hides argument ∧ (url none).run argument = url none := by
  induction h with
  | nil => exact ⟨trivial, rfl⟩
  | escaped c _ ih => exact ⟨⟨rfl, rfl, ih.1⟩, ih.2⟩
  | @string quote body t hquote hbody _ ih =>
    obtain ⟨hhides, hrun⟩ := hides_url_quoted hbody
    have hopen : (url none).step quote = url (some quote) := by
      rw [step, if_neg hquote.ne_backslash, if_pos hquote]
    have hclose : (url (some quote)).step quote = url none := by
      rw [step, if_neg hquote.ne_backslash, if_pos rfl]
    constructor
    · simp only [Hides, hopen, hides_append, hrun, hclose]
      exact ⟨rfl, hhides, rfl, ih.1⟩
    · simp only [run_cons, run_append, hopen, hrun, hclose, ih.2]
  | @plain c t hquote hslash hparen _ ih =>
    have hstep : (url none).step c = url none := by
      rw [step, if_neg hslash, if_neg hquote, if_neg hparen]
    simp only [Hides, run_cons, hstep]
    exact ⟨⟨rfl, ih.1⟩, ih.2⟩

/-- **A `url()` is passed through** behind its first character. -/
theorem hides_url (h : IsArgument argument) :
    (free .u).Hides (['r', 'l', '('] ++ argument ++ [')']) ∧
      (free .u).run (['r', 'l', '('] ++ argument ++ [')']) = start := by
  obtain ⟨hhides, hrun⟩ := hides_argument h
  have hopen : (free .u).run ['r', 'l', '('] = url none := by decide
  constructor
  · rw [hides_append, hides_append, run_append, hopen, hrun]
    exact ⟨⟨⟨rfl, rfl, rfl, trivial⟩, hhides⟩, rfl, trivial⟩
  · rw [run_append, run_append, hopen, hrun]
    rfl

/-- Nothing is left open behind a blank, and no word. -/
theorem step_free_blank (word : Word) {c : Char} (h : Unicode.isWhiteSpace c = true) :
    (free word).step c = start := by
  have hc := not_continuesWord_of_isWhiteSpace h
  have hother : c ≠ '\'' ∧ c ≠ '"' ∧ c ≠ '\\' ∧ c ≠ '(' := by
    refine ⟨?_, ?_, ?_, ?_⟩ <;> rintro rfl <;> exact absurd h (by decide)
  obtain ⟨hsingle, hdouble, hslash, hparen⟩ := hother
  simp [step, hsingle, hdouble, hslash, hparen, next_eq_edge_iff.mpr hc, start]

theorem exists_of_isFree {r : Region} (h : r.isFree = true) : ∃ word, r = free word := by
  cases r with
  | free word => exact ⟨word, rfl⟩
  | _ => cases h

end Region

/-- What a scan has opened is closed by a quote that is none of words. -/
theorem Value.isProper_scanFrom {units : UnitTable} {marker : Text} {r : Region}
    (h : r.IsProper) (t : Text) : (scanFrom units marker r t).2.IsProper := by
  induction r, t using scanFrom.induct units marker with
  | case1 r =>
    rw [scanFrom]
    exact h
  | case2 r c rest lead token behind hfound _ _ _ ih =>
    rw [scanFrom_of_found hfound]
    exact ih trivial
  | case3 r c rest hmissed _ _ _ ih =>
    rw [scanFrom_of_missed hmissed]
    exact ih (h.step c)

/-! ### Values in parts -/

namespace Converter

variable {converter : Converter}

/-- The word in front of an argument has no digits, and no length starts with the argument. -/
theorem url_hasNoDigits (converter : Converter) (b : Text) :
    (∀ c ∈ ['u', 'r', 'l'], continuesWord c = true ∧ c.isDigit = false) ∧
      StartsOff continuesWord ('(' :: b) ∧
        Token.readLength? converter.units ('(' :: b) = none := by
  refine ⟨?_, ?_, ?_⟩
  · simp [continuesWord_of_isAlpha]
  · exact Text.startsOff_cons.mpr (by decide)
  · exact Token.readLength?_cons_eq_none converter.isNamed_units _ (by decide) (by decide)

section Parts

variable (hmarker : ∀ c ∈ converter.marker, continuesWord c = true) {a : Text}
  (ha : (Value.scan converter.units converter.marker a).2.isFree = true)

include hmarker

/-- A value is converted in two parts around what leads back to the start. -/
theorem convertValue_append_hidden {c : Char} {x : Text} (hplus : c ≠ '+')
    (hc : continuesWord c = false)
    (hx : ((Value.scan converter.units converter.marker a).2.step c).Hides x)
    (hrun : ((Value.scan converter.units converter.marker a).2.step c).run x = .start)
    (b : Text) :
    converter.convertValue (a ++ (c :: x) ++ b) =
      converter.convertValue a ++ (c :: x) ++ converter.convertValue b := by
  have hlength : Token.readLength? converter.units (c :: (x ++ b)) = none :=
    Token.readLength?_cons_eq_none converter.isNamed_units _ hplus hc
  have hread : Token.read? converter.units converter.marker (c :: (x ++ b)) = none :=
    Token.read?_cons_eq_none converter.isNamed_units _ hplus hc
      (head?_ne_of_continuesWord hmarker hc)
  have hparts := convertFrom_append_cons hmarker .start a hc hlength hread
  have hbehind : converter.convertFrom _ (x ++ b) = _ := convertFrom_hidden hx b
  rw [hrun] at hbehind
  rw [List.append_assoc, List.append_assoc]
  exact hparts.trans (congrArg (converter.convertValue a ++ c :: ·) hbehind)

/-- No length starts in a `url()`. -/
theorem convertValue_url_append {argument : Text} (h : IsArgument argument) (b : Text) :
    converter.convertValue (['u', 'r', 'l', '('] ++ argument ++ [')'] ++ b) =
      ['u', 'r', 'l', '('] ++ argument ++ [')'] ++ converter.convertValue b := by
  have hread : Token.read? converter.units converter.marker
      (['u', 'r', 'l'] ++ '(' :: (argument ++ [')'] ++ b)) = none := by
    obtain ⟨hword, hoff, hnone⟩ := url_hasNoDigits converter (argument ++ [')'] ++ b)
    exact Token.read?_word_eq_none converter.isNamed_units hmarker
      (Text.startsOff_cons.mpr (by decide)) hword hoff hnone
  obtain ⟨hhides, hrun⟩ := Region.hides_url h
  have hmissed := convertFrom_of_missed ((Value.tokenAt?_start _).trans hread)
  have hbehind : converter.convertFrom _ (_ ++ b) = _ := convertFrom_hidden hhides b
  rw [hrun] at hbehind
  simp only [List.append_assoc, List.cons_append, List.nil_append] at hmissed hbehind ⊢
  exact hmissed.trans (congrArg ('u' :: ·) hbehind)

/-- Behind a character that is none of words a value starts anew, if nothing is open there and
    no length starts with the character. -/
theorem convertValue_append_edge {front : Text} {d : Char} (hd : continuesWord d = false)
    (hfree : (Value.scan converter.units converter.marker (front ++ [d])).2.isFree = true)
    {t : Text} (hlength : Token.readLength? converter.units (d :: t) = none)
    (hread : Token.read? converter.units converter.marker (d :: t) = none) :
    converter.convertValue (front ++ d :: t) =
      converter.convertValue (front ++ [d]) ++ converter.convertValue t := by
  have hunits := converter.isNamed_units
  have halone : Token.readLength? converter.units [d] = none ∧
      Token.read? converter.units converter.marker [d] = none :=
    Token.read?_cons_word_eq_none hunits hmarker hd (x := []) (b := []) (by simp)
      (Text.startsOff_nil _) rfl
  have hproper : (Value.scanFrom converter.units converter.marker .start front).2.IsProper :=
    Value.isProper_scanFrom (r := .start) trivial front
  have hregion : (Value.scanFrom converter.units converter.marker .start front).2.step d =
      .start := by
    apply Region.eq_of_isEdge
    apply (Region.isEdge_step_iff hproper d).mpr
    refine ⟨?_, hd⟩
    rw [Value.scan, Value.scanFrom_append_cons hunits hmarker .start front hd halone.1 halone.2]
      at hfree
    simpa [Value.scanFrom] using hfree
  simp only [convertValue_eq_convertFrom]
  rw [convertFrom_append_cons hmarker .start front hd hlength hread,
    convertFrom_append_cons hmarker .start front hd halone.1 halone.2, hregion, convertFrom_nil,
    List.append_assoc, List.cons_append, List.nil_append]

include ha

theorem convertValue_append_url (hlast : ∀ c ∈ a.getLast?, continuesWord c = false)
    {argument : Text} (h : IsArgument argument) (b : Text) :
    converter.convertValue (a ++ (['u', 'r', 'l', '('] ++ argument ++ [')']) ++ b) =
      converter.convertValue a ++ (['u', 'r', 'l', '('] ++ argument ++ [')']) ++
        converter.convertValue b := by
  have hurl := convertValue_url_append hmarker h b
  rcases List.eq_nil_or_concat a with rfl | ⟨front, d, hfront⟩
  · have hnil : converter.convertValue [] = [] := convertFrom_nil .start
    rw [hnil]
    exact hurl
  · rw [List.concat_eq_append] at hfront
    subst hfront
    have hd : continuesWord d = false := hlast d (by simp)
    obtain ⟨hword, hoff, hnone⟩ := url_hasNoDigits converter (argument ++ [')'] ++ b)
    obtain ⟨hlength, hread⟩ :=
      Token.read?_cons_word_eq_none converter.isNamed_units hmarker hd hword hoff hnone
    have hparts := convertValue_append_edge hmarker hd ha hlength hread
    simp only [List.append_assoc, List.cons_append, List.nil_append] at hparts hurl ⊢
    rw [hparts, hurl]

/-- **A blank, a whole string and a whole `url()` divide a value**: what is in front of one and
    what is behind it are converted on their own, if words go on with the characters of the
    ignore marker, as they do with letters and digits. -/
theorem convertValue_append_divider {o : Text} (ho : Divides a o) (b : Text) :
    converter.convertValue (a ++ o ++ b) =
      converter.convertValue a ++ o ++ converter.convertValue b := by
  obtain ⟨word, hword⟩ := Region.exists_of_isFree ha
  cases ho with
  | @blank c hc =>
    have hplus : c ≠ '+' := by
      rintro rfl
      cases hc
    have hstep := Region.step_free_blank word hc
    rw [← hword] at hstep
    exact convertValue_append_hidden hmarker hplus (not_continuesWord_of_isWhiteSpace hc)
      (x := []) trivial hstep b
  | @string quote body hquote hbody =>
    have hstep : (Value.scan converter.units converter.marker a).2.step quote =
        .quoted quote := by
      rw [hword, Region.step, if_pos hquote]
    obtain ⟨hhides, hrun⟩ := Region.hides_quoted hquote hbody
    rw [← hstep] at hhides hrun
    exact convertValue_append_hidden hmarker hquote.not_continuesWord.2
      hquote.not_continuesWord.1 hhides hrun b
  | @url argument hlast hargument =>
    exact convertValue_append_url hmarker ha hlast hargument b

end Parts

/-- The marker behind the `url()` is found, and the length and the parentheses in it are left
    alone. -/
theorem convertValue_append_divider_url :
    let converter := ofOptions { ignoreIdentifier := some "00".toList }
    let o := ['u', 'r', 'l', '('] ++ "')' \\) 5px".toList ++ [')']
    ((∀ c ∈ converter.marker, continuesWord c = true) ∧
      (Value.scan converter.units converter.marker "1px+".toList).2.isFree = true ∧
        Divides "1px+".toList o) ∧
      converter.convertValue ("1px+".toList ++ o ++ "005px 2px".toList) =
        "0.01em+".toList ++ o ++ "5px 0.02em".toList := by
  intro converter o
  have hmarker : ∀ c ∈ converter.marker, continuesWord c = true := by
    have hzero : converter.marker = ['0', '0'] := rfl
    rw [hzero]
    simp [continuesWord_of_isDigit]
  have ha : (Value.scan converter.units converter.marker "1px+".toList).2.isFree = true := by
    decide +kernel
  have hargument : IsArgument "')' \\) 5px".toList := by
    have hstring : IsStringBody '\'' [')'] := .plain (by decide) (by decide) .nil
    have hplain : ∀ {c : Char} {t : Text}, ¬ IsQuote c ∧ c ≠ '\\' ∧ c ≠ ')' → IsArgument t →
        IsArgument (c :: t) := fun h ht => .plain h.1 h.2.1 h.2.2 ht
    have hlength : IsArgument " 5px".toList := by
      repeat' first | exact .nil | apply hplain (by decide)
    exact .string (Or.inl rfl) hstring (hplain (by decide) (.escaped ')' hlength))
  have hlast : ∀ c ∈ "1px+".toList.getLast?, continuesWord c = false := by
    intro c hc
    cases (rfl : "1px+".toList.getLast? = some '+').symm.trans hc
    decide
  have hdivides : Divides "1px+".toList o := .url hlast hargument
  refine ⟨⟨hmarker, ha, hdivides⟩, ?_⟩
  have hfront : converter.convertValue "1px+".toList = "0.01em+".toList := by decide +kernel
  have hback : converter.convertValue "005px 2px".toList = "5px 0.02em".toList := by
    decide +kernel
  rw [convertValue_append_divider hmarker ha hdivides, hfront, hback]

end Converter

end EmScale
