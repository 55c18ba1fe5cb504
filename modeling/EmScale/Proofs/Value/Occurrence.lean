/-
  EmScale/Proofs/Value/Occurrence.lean
  ====================================
  **Which lengths of a value a scan finds.**

  Where in a value a length stands can be said without a scan: `IsLength` asks what the
  characters in front leave open, what the last of them is, and what follows.  A scan looks
  for lengths at the same places (`Value.isLength_iff`), for what it remembers at a place is
  what the characters in front leave open, whether or not some of them were taken for a
  length (`Value.run_append_length`).

  Lengths may overlap: where `+1px` stands, `1px` stands as well.  A scan finds each length
  that does not start within one that it found, and these are all there are
  (`Value.isLeftmost_iff`).
-/
import EmScale.Proofs.Value.Scan

namespace EmScale

open Text (StartsOff)

/-! ### Where lengths may start -/

namespace Region

/-- Neither a string nor an argument is open, and no backslash is in front. -/
def isFree : Region → Bool
  | free _ => true
  | _ => false

/-- Words do not go on with the quote of a string. -/
def IsProper : Region → Prop
  | quoted quote | quotedEscape quote => continuesWord quote = false
  | _ => True

theorem IsProper.step {r : Region} (h : r.IsProper) (c : Char) : (r.step c).IsProper := by
  cases r with
  | free word =>
    by_cases hquote : c = '\'' ∨ c = '"'
    · rw [Region.step, if_pos hquote]
      rcases hquote with rfl | rfl
      · exact (by decide : continuesWord '\'' = false)
      · exact (by decide : continuesWord '"' = false)
    · rw [Region.step, if_neg hquote]
      repeat' split
      all_goals trivial
  | quoted quote =>
    rw [Region.step]
    repeat' split
    · exact h
    · trivial
    · exact h
  | quotedEscape quote => exact h
  | escape => trivial
  | url quote =>
    cases quote with
    | none =>
      rw [Region.step]
      repeat' split
      all_goals trivial
    | some quote =>
      rw [Region.step]
      repeat' split
      all_goals trivial
  | urlEscape quote => trivial

theorem IsProper.run {r : Region} (h : r.IsProper) (t : Text) : (r.run t).IsProper := by
  induction t generalizing r with
  | nil => exact h
  | cons c t ih => exact ih (h.step c)

theorem next_eq_edge_iff {word : Word} {c : Char} :
    word.next c = .edge ↔ continuesWord c = false := by
  constructor
  · intro h
    by_contra hc
    exact next_ne_edge (by simpa using hc) h
  · intro hc
    unfold Word.next
    split
    · exact absurd hc (by decide)
    · exact absurd hc (by decide)
    · exact absurd hc (by decide)
    · simp [Word.behind, hc]

/-- Behind a character a length may start if nothing is open and no word goes on from it. -/
theorem isEdge_step_iff {r : Region} (h : r.IsProper) (c : Char) :
    (r.step c).isEdge = true ↔ (r.step c).isFree = true ∧ continuesWord c = false := by
  cases r with
  | free word =>
    rw [step]
    repeat' split
    · simp [isEdge, isFree]
    · simp [isEdge, isFree]
    · simp [isEdge, isFree]
    · simp [isEdge, isFree, next_eq_edge_iff]
  | escape =>
    have hnext : Word.behind c = Word.next .inside c := rfl
    rw [step, hnext]
    simp [isEdge, isFree, next_eq_edge_iff]
  | quoted quote =>
    rw [step]
    repeat' split
    · simp [isEdge, isFree]
    · rename_i hquote
      rw [hquote]
      exact iff_of_true rfl ⟨rfl, h⟩
    · simp [isEdge, isFree]
  | quotedEscape quote => simp [step, isEdge, isFree]
  | url quote =>
    cases quote with
    | none =>
      rw [step]
      repeat' split
      · simp [isEdge, isFree]
      · simp [isEdge, isFree]
      · rename_i hparen
        rw [hparen]
        exact iff_of_true rfl ⟨rfl, by decide⟩
      · simp [isEdge, isFree]
    | some quote =>
      rw [step]
      repeat' split
      all_goals simp [isEdge, isFree]
  | urlEscape quote => simp [step, isEdge, isFree]

/-- **Where a length may start.** -/
theorem isEdge_run_start_iff (before : Text) :
    (start.run before).isEdge = true ↔
      (start.run before).isFree = true ∧ ∀ c ∈ before.getLast?, continuesWord c = false := by
  rcases List.eq_nil_or_concat before with rfl | ⟨front, c, rfl⟩
  · simp [start, isEdge, isFree]
  · have hstart : start.IsProper := trivial
    have hproper := hstart.run front
    rw [List.concat_eq_append, run_append, run_cons, run_nil, isEdge_step_iff hproper,
      List.getLast?_concat]
    simp

theorem run_number {word : Word} (hword : word = .edge ∨ word = .inside) {t : Text}
    (hne : t ≠ []) (ht : ∀ c ∈ t, c.isDigit = true ∨ c = '.') :
    (free word).run t = free .inside := by
  have hcontinues : ∀ c ∈ t, continuesWord c = true := by
    intro c hc
    rcases ht c hc with hdigit | rfl
    · exact continuesWord_of_isDigit hdigit
    · decide
  have hother : ∀ c ∈ t, c ≠ '\\' ∧ c ≠ 'u' := by
    intro c hc
    constructor
    · rintro rfl
      exact absurd (ht _ hc) (by decide)
    · rintro rfl
      exact absurd (ht _ hc) (by decide)
  rcases t with _ | ⟨c, t⟩
  · exact absurd rfl hne
  · rw [List.forall_mem_cons] at hcontinues hother
    have hfirst : (free word).step c = free .inside := by
      rcases hword with rfl | rfl
      · exact step_edge hcontinues.1 hother.1.1 hother.1.2
      · exact step_inside hcontinues.1 hother.1.1
    rw [run_cons, hfirst]
    exact run_inside hcontinues.2 fun d hd => (hother.2 d hd).1

/-- **A length leaves nothing open but the word that it ends in.** -/
theorem run_length {n : Numeral} (hn : n.IsWritten) {name : Text}
    (hname : ∀ c ∈ name, c.isAlpha = true) :
    (free .edge).run (n.print ++ name) = free .inside := by
  have hsign : ∃ word : Word, (word = .edge ∨ word = .inside) ∧
      (free .edge).run n.sign = free word := by
    rcases hn.sign with hsign | hsign | hsign <;> rw [hsign]
    · exact ⟨.edge, Or.inl rfl, rfl⟩
    · exact ⟨.edge, Or.inl rfl, by decide⟩
    · exact ⟨.inside, Or.inr rfl, by decide⟩
  have hdigits : ∀ c ∈ n.whole ++ n.point ++ n.fraction, c.isDigit = true ∨ c = '.' := by
    intro c hc
    simp only [List.mem_append] at hc
    rcases hc with (hc | hc) | hc
    · exact Or.inl (hn.whole c hc)
    · rcases hn.point with ⟨hpoint, -⟩ | hpoint <;> rw [hpoint] at hc
      · cases hc
      · exact Or.inr (List.mem_singleton.mp hc)
    · exact Or.inl (hn.fraction c hc)
  have hfilled : n.whole ++ n.point ++ n.fraction ≠ [] := by
    intro hempty
    simp only [List.append_eq_nil_iff] at hempty
    exact hn.filled ⟨hempty.1.1, hempty.2⟩
  have hletters : ∀ c ∈ name, c ≠ '\\' := by
    rintro c hc rfl
    exact absurd (hname _ hc) (by decide)
  have hprint : n.print ++ name = n.sign ++ ((n.whole ++ n.point ++ n.fraction) ++ name) := by
    simp [Numeral.print]
  obtain ⟨word, hword, hrun⟩ := hsign
  rw [hprint, run_append, hrun, run_append, run_number hword hfilled hdigits]
  exact run_inside (fun c hc => continuesWord_of_isAlpha (hname c hc)) hletters

end Region

/-! ### Where lengths stand -/

/-- The rules for lengths: between `before` and `rest` the number `n` and the name of `unit`
    are a length. -/
structure IsLength (units : UnitTable) (before : Text) (n : Numeral) (unit : SourceUnit)
    (rest : Text) : Prop where
  free : (Region.start.run before).isFree = true
  starts : ∀ c ∈ before.getLast?, continuesWord c = false
  written : n.IsWritten
  listed : unit ∈ units
  ends : StartsOff continuesWord rest

/-- The place of the length that stands behind `before`. -/
def Match.behind (before : Text) (n : Numeral) (unit : SourceUnit) : Match :=
  let start := Text.byteSize before
  let numberStop := start + Text.byteSize n.print
  ⟨start, start, numberStop, numberStop + Text.byteSize unit.name, ⟨[], n, unit⟩⟩

/-- A length stands at this place of a value. -/
def Match.Occurs (units : UnitTable) (value : Text) (place : Match) : Prop :=
  ∃ before n unit rest, before ++ (n.print ++ unit.name ++ rest) = value ∧
    IsLength units before n unit rest ∧ Match.behind before n unit = place

/-- Places of lengths in order that do not overlap and leave out only what starts within one
    of them. -/
structure Match.IsLeftmost (units : UnitTable) (value : Text) (places : List Match) : Prop where
  occurs : ∀ place ∈ places, place.Occurs units value
  apart : places.Pairwise fun a b => a.stop ≤ b.start
  leftmost : ∀ other : Match, other.Occurs units value →
    other ∈ places ∨ ∃ place ∈ places, place.start < other.start ∧ other.start < place.stop

namespace Match

variable {units : UnitTable} {value : Text}

theorem Occurs.start_lt_stop {place : Match} (h : place.Occurs units value) :
    place.start < place.stop := by
  obtain ⟨before, n, unit, rest, -, hlength, rfl⟩ := h
  have hpos := Text.byteSize_pos hlength.written.print_ne_nil
  simp only [behind]
  omega

/-! ### At most one list of leftmost places -/

def StartsBefore (a b : Match) : Prop :=
  a.start < b.start

instance : Std.Irrefl StartsBefore :=
  ⟨fun a => Nat.lt_irrefl a.start⟩

instance : Std.Antisymm StartsBefore :=
  ⟨fun _ _ hab hba => absurd (Nat.lt_trans hab hba) (Nat.lt_irrefl _)⟩

namespace IsLeftmost

variable {a b : List Match}

theorem pairwise_startsBefore (h : IsLeftmost units value a) : a.Pairwise StartsBefore := by
  apply h.apart.imp_of_mem
  intro place other hplace _ hapart
  exact Nat.lt_of_lt_of_le (h.occurs place hplace).start_lt_stop hapart

/-- What starts within a place is none. -/
theorem stop_le_start (h : IsLeftmost units value a) {place other : Match} (hplace : place ∈ a)
    (hother : other ∈ a) (hstart : place.start < other.start) : place.stop ≤ other.start := by
  have hplace' := (h.occurs place hplace).start_lt_stop
  have hother' := (h.occurs other hother).start_lt_stop
  obtain ⟨front, rest, rfl⟩ := List.append_of_mem hplace
  obtain ⟨-, hrest, hfront⟩ := List.pairwise_append.mp h.apart
  rcases List.mem_append.mp hother with hother | hother
  · have hapart := hfront other hother place List.mem_cons_self
    omega
  · rcases List.mem_cons.mp hother with rfl | hother
    · omega
    · exact (List.pairwise_cons.mp hrest).1 other hother

/-- A place in `a` is in `b` if those in `b` that start in front of it are in `a`. -/
theorem mem_of_mem (ha : IsLeftmost units value a) (hb : IsLeftmost units value b)
    {place : Match} (hfront : ∀ other ∈ b, other.start < place.start → other ∈ a)
    (hplace : place ∈ a) : place ∈ b := by
  rcases hb.leftmost place (ha.occurs place hplace) with hin | ⟨other, hother, hstart, hstop⟩
  · exact hin
  · have hapart := ha.stop_le_start (hfront other hother hstart) hplace hstart
    omega

theorem mem_iff (ha : IsLeftmost units value a) (hb : IsLeftmost units value b) (place : Match) :
    place ∈ a ↔ place ∈ b := by
  induction hsize : place.start using Nat.strong_induction_on generalizing place with
  | _ size ih =>
    subst hsize
    constructor
    · apply mem_of_mem ha hb
      intro other hother hstart
      exact (ih other.start hstart other rfl).mpr hother
    · apply mem_of_mem hb ha
      intro other hother hstart
      exact (ih other.start hstart other rfl).mp hother

/-- **The leftmost places are determined.** -/
theorem unique (ha : IsLeftmost units value a) (hb : IsLeftmost units value b) : a = b :=
  ha.pairwise_startsBefore.eq_of_mem_iff hb.pairwise_startsBefore (ha.mem_iff hb)

end IsLeftmost

/-! ### Places among segments -/

theorem le_start_of_mem_ofSegments {segments : List Segment} {offset : Nat} {place : Match}
    (h : place ∈ ofSegments offset segments) : offset ≤ place.start := by
  induction segments generalizing offset with
  | nil => cases h
  | cons segment rest ih =>
    cases segment with
    | other c =>
      rw [ofSegments] at h
      exact (Nat.le_add_right _ _).trans (ih h)
    | token token =>
      rw [ofSegments] at h
      rcases List.mem_cons.mp h with rfl | h
      · exact Nat.le_refl _
      · have hrest := ih h
        omega

theorem pairwise_ofSegments (segments : List Segment) (offset : Nat) :
    (ofSegments offset segments).Pairwise fun a b => a.stop ≤ b.start := by
  induction segments generalizing offset with
  | nil => exact List.Pairwise.nil
  | cons segment rest ih =>
    cases segment with
    | other c => exact ih _
    | token token =>
      rw [ofSegments]
      apply List.pairwise_cons.mpr
      refine ⟨?_, ih _⟩
      intro place hplace
      exact le_start_of_mem_ofSegments hplace

end Match

/-! ### What a scan finds -/

namespace Value

variable {units : UnitTable}

/-- The places of the lengths that a scan finds in `t` behind `before`. -/
def placesBehind (units : UnitTable) (before t : Text) : List Match :=
  Match.ofSegments (Text.byteSize before) (scanFrom units [] (Region.start.run before) t).1

theorem placesBehind_nil (before : Text) : placesBehind units before [] = [] := by
  rw [placesBehind, scanFrom]
  rfl

section Table

variable (hnamed : units.IsNamed) (hordered : units.IsOrdered)

include hnamed hordered

/-- **A scan looks for lengths where they stand.** -/
theorem isLength_iff {before rest : Text} {n : Numeral} {unit : SourceUnit} :
    IsLength units before n unit rest ↔
      (Region.start.run before).isEdge = true ∧
        Token.readLength? units (n.print ++ unit.name ++ rest) = some (n, unit, rest) := by
  rw [Region.isEdge_run_start_iff, Token.readLength?_eq_some_iff hnamed,
    UnitTable.startOf?_name_iff hordered]
  constructor
  · rintro ⟨hfree, hstarts, hwritten, hlisted, hends⟩
    exact ⟨⟨hfree, hstarts⟩, rfl, hwritten, hlisted, hends⟩
  · rintro ⟨⟨hfree, hstarts⟩, -, hwritten, hlisted, hends⟩
    exact ⟨hfree, hstarts, hwritten, hlisted, hends⟩

/-- At most one length stands behind a text. -/
theorem isLength_unique {before rest rest' : Text} {n n' : Numeral} {unit unit' : SourceUnit}
    (h : IsLength units before n unit rest) (h' : IsLength units before n' unit' rest')
    (hsame : n.print ++ unit.name ++ rest = n'.print ++ unit'.name ++ rest') :
    n = n' ∧ unit = unit' := by
  obtain ⟨-, hread⟩ := (isLength_iff hnamed hordered).mp h
  obtain ⟨-, hread'⟩ := (isLength_iff hnamed hordered).mp h'
  rw [hsame] at hread
  cases hread.symm.trans hread'
  exact ⟨rfl, rfl⟩

/-- Behind a length a scan goes on as if it had gone through the length. -/
theorem run_append_length {before rest : Text} {n : Numeral} {unit : SourceUnit}
    (h : IsLength units before n unit rest) :
    Region.start.run (before ++ (n.print ++ unit.name)) = .free .inside := by
  obtain ⟨hedge, -⟩ := (isLength_iff hnamed hordered).mp h
  obtain ⟨-, hletters⟩ := isUnitName_iff.mp (hnamed unit h.listed)
  rw [Region.run_append, Region.eq_of_isEdge hedge]
  exact Region.run_length h.written hletters

theorem placesBehind_length {before rest : Text} {n : Numeral} {unit : SourceUnit}
    (h : IsLength units before n unit rest) :
    placesBehind units before (n.print ++ unit.name ++ rest) =
      Match.behind before n unit ::
        placesBehind units (before ++ (n.print ++ unit.name)) rest := by
  obtain ⟨hedge, hread⟩ := (isLength_iff hnamed hordered).mp h
  rw [placesBehind, scanFrom_token hedge hread, placesBehind,
    run_append_length hnamed hordered h]
  simp only [Match.ofSegments, Match.behind, Text.byteSize_append, Text.byteSize_nil,
    Nat.add_zero, Nat.add_assoc]

/-- No length stands at the start of `t` behind `before`. -/
theorem readLength?_eq_none_of_forall {before t : Text}
    (h : ∀ n unit rest, n.print ++ unit.name ++ rest = t → ¬ IsLength units before n unit rest)
    (hedge : (Region.start.run before).isEdge = true) : Token.readLength? units t = none := by
  rw [Option.eq_none_iff_forall_ne_some]
  rintro ⟨n, unit, rest⟩ hread
  have hwhole := Token.append_of_readLength? hread
  apply h n unit rest hwhole
  rw [isLength_iff hnamed hordered, hwhole]
  exact ⟨hedge, hread⟩

theorem placesBehind_other {before t : Text} {c : Char}
    (h : ∀ n unit rest, n.print ++ unit.name ++ rest = c :: t →
      ¬ IsLength units before n unit rest) :
    placesBehind units before (c :: t) = placesBehind units (before ++ [c]) t := by
  have hread := readLength?_eq_none_of_forall hnamed hordered h
  rw [placesBehind, scanFrom_other hread, placesBehind, Region.run_append, Text.byteSize_append]
  rfl

/-- **Induction along a scan**, by the rules for lengths. -/
theorem placesBehind_induction {motive : Text → Text → Prop}
    (nil : ∀ before, motive before [])
    (length : ∀ before n unit rest, IsLength units before n unit rest →
      motive (before ++ (n.print ++ unit.name)) rest →
        motive before (n.print ++ unit.name ++ rest))
    (other : ∀ before c t,
      (∀ n unit rest, n.print ++ unit.name ++ rest = c :: t →
        ¬ IsLength units before n unit rest) →
      motive (before ++ [c]) t → motive before (c :: t))
    (before t : Text) : motive before t := by
  induction hr : Region.start.run before, t using scan_induction units generalizing before with
  | nil r => exact nil before
  | token r n unit rest hedge hread ih =>
    subst hr
    have hlength := (isLength_iff hnamed hordered).mpr ⟨hedge, hread⟩
    exact length before n unit rest hlength
      (ih _ (run_append_length hnamed hordered hlength))
  | other r c t hread ih =>
    subst hr
    apply other before c t
    · intro n unit rest hwhole hlength
      obtain ⟨hedge, hsome⟩ := (isLength_iff hnamed hordered).mp hlength
      rw [hwhole, hread hedge] at hsome
      cases hsome
    · apply ih
      rw [Region.run_append]
      rfl

/-- **What a scan finds are places of lengths.** -/
theorem occurs_of_mem_placesBehind {before t : Text} {place : Match}
    (h : place ∈ placesBehind units before t) : place.Occurs units (before ++ t) := by
  induction before, t using placesBehind_induction hnamed hordered with
  | nil before =>
    rw [placesBehind_nil] at h
    cases h
  | length before n unit rest hlength ih =>
    rw [placesBehind_length hnamed hordered hlength] at h
    rcases List.mem_cons.mp h with rfl | h
    · exact ⟨before, n, unit, rest, rfl, hlength, rfl⟩
    · have hlater := ih h
      rwa [List.append_assoc] at hlater
  | other before c t hnone ih =>
    rw [placesBehind_other hnamed hordered hnone] at h
    have hlater := ih h
    rwa [List.append_assoc] at hlater

/-- **A scan finds every length that does not start within one that it finds.** -/
theorem mem_or_within_of_isLength (before : Text) {middle rest t : Text} {n : Numeral}
    {unit : SourceUnit} (ht : middle ++ (n.print ++ unit.name ++ rest) = t)
    (h : IsLength units (before ++ middle) n unit rest) :
    Match.behind (before ++ middle) n unit ∈ placesBehind units before t ∨
      ∃ place ∈ placesBehind units before t,
        place.start < Text.byteSize (before ++ middle) ∧
          Text.byteSize (before ++ middle) < place.stop := by
  induction before, t using placesBehind_induction hnamed hordered generalizing middle with
  | nil before =>
    simp only [List.append_eq_nil_iff] at ht
    exact absurd ht.2.1.1 h.written.print_ne_nil
  | length before n' unit' rest' hlength ih =>
    rw [placesBehind_length hnamed hordered hlength]
    by_cases hmiddle : middle = []
    · subst hmiddle
      rw [List.append_nil] at h ⊢
      obtain ⟨rfl, rfl⟩ := isLength_unique hnamed hordered h hlength ht
      exact Or.inl List.mem_cons_self
    by_cases hpasses : n'.print ++ unit'.name <+: middle
    · -- The length stands behind the one that is found here.
      obtain ⟨later, rfl⟩ := hpasses
      rw [List.append_assoc, List.append_cancel_left_eq] at ht
      have hbehind : before ++ (n'.print ++ unit'.name ++ later) =
          before ++ (n'.print ++ unit'.name) ++ later := (List.append_assoc _ _ _).symm
      rw [hbehind] at h ⊢
      rcases ih ht h with hin | ⟨place, hplace, hwithin⟩
      · exact Or.inl (List.mem_cons_of_mem _ hin)
      · exact Or.inr ⟨place, List.mem_cons_of_mem _ hplace, hwithin⟩
    · -- The length starts within the one that is found here.
      right
      refine ⟨Match.behind before n' unit', List.mem_cons_self, ?_, ?_⟩
      · have hpos := Text.byteSize_pos hmiddle
        rw [Text.byteSize_append]
        exact Nat.lt_add_of_pos_right hpos
      · rcases List.append_eq_append_iff.mp ht with ⟨inside, hinside, -⟩ | ⟨later, rfl, -⟩
        · have hne : inside ≠ [] := by
            rintro rfl
            rw [List.append_nil] at hinside
            exact hpasses (hinside ▸ List.prefix_rfl)
          have hpos := Text.byteSize_pos hne
          have hsize := congrArg Text.byteSize hinside
          rw [Text.byteSize_append, Text.byteSize_append] at hsize
          rw [Text.byteSize_append]
          simp only [Match.behind]
          omega
        · exact absurd (List.prefix_append _ _) hpasses
  | other before c t hnone ih =>
    rw [placesBehind_other hnamed hordered hnone]
    rcases middle with _ | ⟨d, middle⟩
    · rw [List.append_nil] at h
      exact absurd h (hnone n unit rest ht)
    · obtain ⟨rfl, hrest⟩ := List.cons.inj ht
      rw [List.append_cons before d middle] at h ⊢
      exact ih hrest h

theorem isLeftmost_placesBehind (value : Text) :
    Match.IsLeftmost units value (placesBehind units [] value) where
  occurs _ hplace := occurs_of_mem_placesBehind hnamed hordered hplace
  apart := Match.pairwise_ofSegments _ _
  leftmost := by
    rintro _ ⟨before, n, unit, rest, hvalue, hlength, rfl⟩
    exact mem_or_within_of_isLength hnamed hordered [] hvalue hlength

end Table

/-- **A scan finds exactly the leftmost lengths.** -/
theorem isLeftmost_iff (root : RootValue) (value : Text) (places : List Match) :
    Match.IsLeftmost root.resolve value places ↔
      places = Match.ofSegments 0 (scan root.resolve [] value).1 := by
  have hscan := isLeftmost_placesBehind root.isNamed_resolve root.isOrdered_resolve value
  constructor
  · intro h
    exact h.unique hscan
  · rintro rfl
    exact hscan

end Value

end EmScale
