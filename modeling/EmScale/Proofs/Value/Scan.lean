/-
  EmScale/Proofs/Value/Scan.lean
  ==============================
  **Scanning values.**

  A scan takes one of two steps: where a word may start and a length stands there it takes the
  length, and otherwise one character.  Without ignore markers `Value.scan_induction` is the
  induction along these steps.

  Where no word may start nothing is taken for a length, so a scan copies the rest of a word
  (`Value.scanFrom_hidden`).  And since lengths are read alike in front of what starts neither
  with a character of words nor with a length, a scan can be cut there
  (`Value.scanFrom_append_of_marker`).
-/
import EmScale.Proofs.Value.Length
import EmScale.Value.Scan

namespace EmScale

open Text (StartsOff)

/-! ### Regions within a word -/

namespace Region

/-- A word is open, or a backslash is in front. -/
def IsWithinWord : Region → Prop
  | free word => word ≠ .edge
  | escape => True
  | _ => False

theorem IsWithinWord.not_isEdge {r : Region} (h : r.IsWithinWord) : r.isEdge = false := by
  cases r with
  | free word => simpa [isEdge, IsWithinWord] using h
  | _ => rfl

theorem isWithinWord_inside : (free .inside).IsWithinWord := by
  simp [IsWithinWord]

theorem eq_of_isEdge {r : Region} (h : r.isEdge = true) : r = free .edge := by
  simpa [isEdge] using h

theorem next_ne_edge {w : Word} {c : Char} (hc : continuesWord c = true) :
    w.next c ≠ .edge := by
  unfold Word.next
  split
  · simp
  · simp
  · simp
  · simp [Word.behind, hc]

theorem ne_of_continuesWord {c : Char} (hc : continuesWord c = true) :
    c ≠ '\'' ∧ c ≠ '"' ∧ c ≠ '(' := by
  refine ⟨?_, ?_, ?_⟩ <;> rintro rfl <;> exact absurd hc (by decide)

theorem step_free_isWithinWord (w : Word) {c : Char} (hc : continuesWord c = true) :
    ((free w).step c).IsWithinWord := by
  obtain ⟨hsingle, hdouble, hparen⟩ := ne_of_continuesWord hc
  by_cases hslash : c = '\\'
  · simp [step, hslash, IsWithinWord]
  · simp [step, hsingle, hdouble, hslash, hparen, IsWithinWord, next_ne_edge hc]

theorem IsWithinWord.step {r : Region} (h : r.IsWithinWord) {c : Char}
    (hc : continuesWord c = true) : (r.step c).IsWithinWord := by
  cases r with
  | free w => exact step_free_isWithinWord w hc
  | escape => simp [Region.step, Word.behind, hc, IsWithinWord]
  | _ => exact h.elim

theorem IsWithinWord.run {r : Region} (h : r.IsWithinWord) {w : Text}
    (hw : ∀ c ∈ w, continuesWord c = true) : (r.run w).IsWithinWord := by
  induction w generalizing r with
  | nil => exact h
  | cons c w ih =>
    exact ih (h.step (hw c (by simp))) fun d hd => hw d (by simp [hd])

/-- A word goes on with any character of words but a backslash. -/
theorem step_inside {c : Char} (hc : continuesWord c = true) (hslash : c ≠ '\\') :
    (free .inside).step c = free .inside := by
  obtain ⟨hsingle, hdouble, hparen⟩ := ne_of_continuesWord hc
  simp [step, hsingle, hdouble, hslash, hparen, Word.next, Word.behind, hc]

/-- A word that does not start with a `u` is none that opens an argument. -/
theorem step_edge {c : Char} (hc : continuesWord c = true) (hslash : c ≠ '\\') (hu : c ≠ 'u') :
    (free .edge).step c = free .inside := by
  obtain ⟨hsingle, hdouble, hparen⟩ := ne_of_continuesWord hc
  simp [step, hsingle, hdouble, hslash, hparen, Word.next, Word.behind, hc, hu]

theorem run_inside {w : Text} (hw : ∀ c ∈ w, continuesWord c = true)
    (hslash : ∀ c ∈ w, c ≠ '\\') : (free .inside).run w = free .inside := by
  induction w with
  | nil => rfl
  | cons c w ih =>
    rw [List.forall_mem_cons] at hw hslash
    rw [run_cons, step_inside hw.1 hslash.1]
    exact ih hw.2 hslash.2

end Region

/-! ### Texts without places for lengths -/

namespace Region

/-- A length is looked for at no character of a text. -/
def Hides (r : Region) : Text → Prop
  | [] => True
  | c :: t => r.isEdge = false ∧ (r.step c).Hides t

theorem hides_append {r : Region} {a b : Text} :
    r.Hides (a ++ b) ↔ r.Hides a ∧ (r.run a).Hides b := by
  induction a generalizing r with
  | nil => simp [Hides]
  | cons c a ih => simp only [List.cons_append, Hides, run_cons, ih, and_assoc]

theorem IsWithinWord.hides {r : Region} (h : r.IsWithinWord) {w : Text}
    (hw : ∀ c ∈ w, continuesWord c = true) : r.Hides w := by
  induction w generalizing r with
  | nil => trivial
  | cons c w ih =>
    refine ⟨h.not_isEdge, ?_⟩
    exact ih (h.step (hw c (by simp))) fun d hd => hw d (by simp [hd])

end Region

/-! ### Steps of a scan -/

theorem Segment.mem_filterMap_token? {segments : List Segment} {token : Token} :
    token ∈ segments.filterMap token? ↔ .token token ∈ segments := by
  rw [List.mem_filterMap]
  constructor
  · rintro ⟨segment, hsegment, htoken⟩
    cases segment with
    | other c => cases htoken
    | token found =>
      cases htoken
      exact hsegment
  · intro h
    exact ⟨_, h, rfl⟩

namespace Value

variable {units : UnitTable} {r : Region}

section Marked

variable {marker : Text}

theorem scanFrom_of_found {t lead rest : Text} {token : Token}
    (h : tokenAt? units marker r t = some (lead, token, rest)) :
    scanFrom units marker r t =
      (lead.map .other ++ .token token :: (scanFrom units marker (.free .inside) rest).1,
        (scanFrom units marker (.free .inside) rest).2) := by
  cases t with
  | nil => exact absurd (length_lt_of_tokenAt? h) (Nat.not_lt_zero _)
  | cons c t =>
    rw [scanFrom]
    split <;> simp_all

theorem scanFrom_of_missed {c : Char} {t : Text}
    (h : tokenAt? units marker r (c :: t) = none) :
    scanFrom units marker r (c :: t) =
      (.other c :: (scanFrom units marker (r.step c) t).1,
        (scanFrom units marker (r.step c) t).2) := by
  rw [scanFrom]
  split <;> simp_all

theorem tokenAt?_of_isEdge (hedge : r.isEdge = true) (t : Text) :
    tokenAt? units marker r t = Token.read? units marker t :=
  if_pos hedge

theorem tokenAt?_start (t : Text) :
    tokenAt? units marker .start t = Token.read? units marker t :=
  tokenAt?_of_isEdge rfl t

theorem tokenAt?_eq_none (h : r.isEdge = false) (t : Text) :
    tokenAt? units marker r t = none := by
  simp [tokenAt?, h]

/-- **Where no length is looked for the text is copied.** -/
theorem scanFrom_hidden {x : Text} (h : r.Hides x) (t : Text) :
    scanFrom units marker r (x ++ t) =
      (x.map .other ++ (scanFrom units marker (r.run x) t).1,
        (scanFrom units marker (r.run x) t).2) := by
  induction x generalizing r with
  | nil => rfl
  | cons c x ih =>
    obtain ⟨hedge, hx⟩ := h
    rw [List.cons_append, scanFrom_of_missed (tokenAt?_eq_none hedge _), ih hx]
    rfl

theorem tokenAt?_append (hunits : units.IsNamed)
    (hmarker : ∀ c ∈ marker, continuesWord c = true) (r : Region) {t b : Text} (ht : t ≠ [])
    (hb : StartsOff continuesWord b)
    (hstart : marker = [] ∨ Token.readLength? units b = none) :
    tokenAt? units marker r (t ++ b) =
      (tokenAt? units marker r t).map fun (lead, token, rest) => (lead, token, rest ++ b) := by
  unfold tokenAt?
  split
  · exact Token.read?_append hunits hmarker ht hb hstart
  · rfl

/-- **A scan can be cut** in front of what starts neither with a character of words nor with a
    length. -/
theorem scanFrom_append_of_marker (hunits : units.IsNamed)
    (hmarker : ∀ c ∈ marker, continuesWord c = true) (r : Region) (a : Text) {b : Text}
    (hb : StartsOff continuesWord b)
    (hstart : marker = [] ∨ Token.readLength? units b = none) :
    scanFrom units marker r (a ++ b) =
      let behind := scanFrom units marker (scanFrom units marker r a).2 b
      ((scanFrom units marker r a).1 ++ behind.1, behind.2) := by
  have hread : ∀ (r : Region) (c : Char) (t : Text), tokenAt? units marker r (c :: t ++ b) = _ :=
    fun r c t => tokenAt?_append hunits hmarker r (List.cons_ne_nil c t) hb hstart
  induction r, a using scanFrom.induct units marker with
  | case1 r => simp [scanFrom]
  | case2 r c rest lead token behind hfound _ _ _ ih =>
    have hagain := hread r c rest
    rw [hfound] at hagain
    rw [scanFrom_of_found hagain, ih, scanFrom_of_found hfound]
    simp
  | case3 r c rest hmissed _ _ _ ih =>
    have hagain := hread r c rest
    rw [hmissed] at hagain
    rw [List.cons_append] at hagain ⊢
    rw [scanFrom_of_missed hagain, ih, scanFrom_of_missed hmissed]
    rfl

/-- A scan can be cut behind such a character as well. -/
theorem scanFrom_append_cons (hunits : units.IsNamed)
    (hmarker : ∀ c ∈ marker, continuesWord c = true) (r : Region) (a : Text) {d : Char} {t : Text}
    (hd : continuesWord d = false) (hlength : Token.readLength? units (d :: t) = none)
    (hread : Token.read? units marker (d :: t) = none) :
    scanFrom units marker r (a ++ d :: t) =
      let front := scanFrom units marker r a
      let behind := scanFrom units marker (front.2.step d) t
      (front.1 ++ .other d :: behind.1, behind.2) := by
  have hmissed : ∀ r : Region, tokenAt? units marker r (d :: t) = none := by
    intro r
    unfold tokenAt?
    split
    · exact hread
    · rfl
  rw [scanFrom_append_of_marker hunits hmarker r a (Text.startsOff_cons.mpr hd) (Or.inr hlength),
    scanFrom_of_missed (hmissed _)]

end Marked

/-! ### Scans without ignore markers -/

theorem read?_unmarked (t : Text) :
    Token.read? units [] t =
      (Token.readLength? units t).map fun (n, unit, rest) => ([], ⟨[], n, unit⟩, rest) :=
  Token.read?_of_readIgnored?_eq_none (by simp [Token.readIgnored?])

theorem scanFrom_token {t rest : Text} {n : Numeral} {unit : SourceUnit} (hedge : r.isEdge = true)
    (h : Token.readLength? units t = some (n, unit, rest)) :
    scanFrom units [] r t =
      (.token ⟨[], n, unit⟩ :: (scanFrom units [] (.free .inside) rest).1,
        (scanFrom units [] (.free .inside) rest).2) := by
  have hread : tokenAt? units [] r t = some ([], ⟨[], n, unit⟩, rest) := by
    rw [tokenAt?_of_isEdge hedge, read?_unmarked, h]
    rfl
  exact scanFrom_of_found hread

theorem scanFrom_other {c : Char} {t : Text}
    (h : r.isEdge = true → Token.readLength? units (c :: t) = none) :
    scanFrom units [] r (c :: t) =
      (.other c :: (scanFrom units [] (r.step c) t).1, (scanFrom units [] (r.step c) t).2) := by
  have hread : tokenAt? units [] r (c :: t) = none := by
    unfold tokenAt?
    split
    · rename_i hedge
      simp [read?_unmarked, h hedge]
    · rfl
  exact scanFrom_of_missed hread

/-- **Induction along a scan.** -/
theorem scan_induction (units : UnitTable) {motive : Region → Text → Prop}
    (nil : ∀ r, motive r [])
    (token : ∀ r n unit rest, r.isEdge = true →
      Token.readLength? units (n.print ++ unit.name ++ rest) = some (n, unit, rest) →
        motive (.free .inside) rest → motive r (n.print ++ unit.name ++ rest))
    (other : ∀ r c t, (r.isEdge = true → Token.readLength? units (c :: t) = none) →
      motive (r.step c) t → motive r (c :: t)) (r : Region) (t : Text) : motive r t := by
  cases t with
  | nil => exact nil r
  | cons c t =>
    by_cases hedge : r.isEdge = true
    · rcases hread : Token.readLength? units (c :: t) with _ | ⟨n, unit, rest⟩
      · exact other r c t (fun _ => hread) (scan_induction units nil token other (r.step c) t)
      · have hwhole := Token.append_of_readLength? hread
        have hshorter : rest.length ≤ t.length := by
          have hfilled := List.length_pos_iff.mpr (Token.numeral_ne_nil_of_readLength? hread)
          have hsize := congrArg List.length hwhole
          simp only [List.length_append, List.length_cons] at hsize
          omega
        rw [← hwhole] at hread ⊢
        exact token r n unit rest hedge hread
          (scan_induction units nil token other (.free .inside) rest)
    · exact other r c t (fun h => absurd h hedge)
        (scan_induction units nil token other (r.step c) t)
termination_by t.length

/-- **The rest of a word is copied.** -/
theorem scanFrom_word {r : Region} (hr : r.IsWithinWord) {w : Text}
    (hw : ∀ c ∈ w, continuesWord c = true) (t : Text) :
    scanFrom units [] r (w ++ t) =
      (w.map .other ++ (scanFrom units [] (r.run w) t).1, (scanFrom units [] (r.run w) t).2) :=
  scanFrom_hidden (hr.hides hw) t

/-- **A scan goes on from where a word has ended.** -/
theorem scanFrom_append (hunits : units.IsNamed) (r : Region) (a : Text) {b : Text}
    (hb : StartsOff continuesWord b) :
    scanFrom units [] r (a ++ b) =
      let behind := scanFrom units [] (scanFrom units [] r a).2 b
      ((scanFrom units [] r a).1 ++ behind.1, behind.2) :=
  scanFrom_append_of_marker hunits (by simp) r a hb (Or.inl rfl)

end Value

end EmScale
