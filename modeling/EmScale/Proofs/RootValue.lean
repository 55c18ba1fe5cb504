/-
  EmScale/Proofs/RootValue.lean
  =============================
  **What a root value is resolved to.**

  The table of a root value has each unit once, longer names first, and among them `px` with a
  divisor that lengths can be divided by in earnest.  Every other unit is one that the root
  value lists, with the divisor that it has there (`RootValue.IsTable`).

  There are two ways to resolve a root value and to make a converter from it.  They differ only
  where the divisor of `px` is no positive number: there one takes the default and the other
  fails.
-/
import EmScale.Converter.Basic
import EmScale.Proofs.Units

namespace EmScale

/-! ### Order -/

/-- Longer names first, names of one length in alphabetical order. -/
def SourceUnit.IsBefore (a b : SourceUnit) : Prop :=
  b.name.length < a.name.length ∨ a.name.length = b.name.length ∧ a.name < b.name

theorem SourceUnit.isBefore_of_precedes {a b : SourceUnit} (h : a.precedes b = true)
    (hne : a.name ≠ b.name) : a.IsBefore b := by
  rcases UnitTable.precedes_iff.mp h with hlonger | ⟨hsame, hname⟩
  · exact Or.inl hlonger
  · exact Or.inr ⟨hsame, lt_of_le_of_ne hname hne⟩

instance : Std.Irrefl SourceUnit.IsBefore where
  irrefl a h := by
    rcases h with hlonger | ⟨-, hname⟩
    · exact Nat.lt_irrefl _ hlonger
    · exact lt_irrefl _ hname

instance : Std.Antisymm SourceUnit.IsBefore where
  antisymm a b hab hba := by
    rcases hab with hab | ⟨hsame, hname⟩
    · rcases hba with hba | ⟨hsame, -⟩ <;> omega
    · rcases hba with hba | ⟨-, hname'⟩
      · omega
      · exact absurd hname' (lt_asymm hname)

/-- Where no name comes twice the order of precedence is strict. -/
theorem UnitTable.pairwise_isBefore {units : UnitTable}
    (h : units.Pairwise fun a b => a.precedes b = true)
    (hdistinct : (units.map SourceUnit.name).Nodup) : units.Pairwise SourceUnit.IsBefore := by
  rw [List.Nodup, List.pairwise_map] at hdistinct
  apply (h.and hdistinct).imp
  rintro a b ⟨hprecedes, hne⟩
  exact SourceUnit.isBefore_of_precedes hprecedes hne

namespace RootValue

/-! ### Divisors that are given -/

/-- The divisor that a root value gives a unit. -/
def given? : RootValue → Text → Option Float
  | uniform divisor, name => if usualUnits.contains name then some divisor else none
  | perUnit divisors, name => UnitTable.divisor? divisors.units name

/-- The divisor that a root value gives `px`, or the default if it gives none. -/
def givenDefault (root : RootValue) : Float :=
  (root.given? defaultUnit).getD defaultRootValue

/-- A finite number above zero. -/
def IsPositive (divisor : Float) : Prop :=
  divisor.isFinite = true ∧ 0.0 < divisor

instance (divisor : Float) : Decidable (IsPositive divisor) :=
  inferInstanceAs (Decidable (_ ∧ _))

/-- The divisor of `px` in the end. -/
def usableDefault (root : RootValue) : Float :=
  if IsPositive root.givenDefault then root.givenDefault else defaultRootValue

theorem isUsableDivisor_iff {divisor : Float} :
    isUsableDivisor divisor = true ↔ IsPositive divisor := by
  simp [isUsableDivisor, IsPositive]

theorem isPositive_defaultRootValue : IsPositive defaultRootValue := by
  decide +kernel

theorem isPositive_usableDefault (root : RootValue) : IsPositive root.usableDefault := by
  unfold usableDefault
  split
  · assumption
  · exact isPositive_defaultRootValue

/-! ### Units that are listed -/

section PerUnit

variable {divisors : Divisors} {unit : SourceUnit}

theorem mem_listed_of_mem (h : unit ∈ divisors.units) (hname : isUnitName unit.name = true) :
    unit ∈ (perUnit divisors).listed := by
  have hnamed : unit ∈ divisors.units.filter fun unit => isUnitName unit.name :=
    List.mem_filter.mpr ⟨h, hname⟩
  unfold listed
  dsimp only
  split
  · exact hnamed
  · exact List.mem_append_left _ hnamed

/-- But for `px`, the units of a root value are the ones with a valid name. -/
theorem mem_listed_iff (hne : unit.name ≠ defaultUnit) :
    unit ∈ (perUnit divisors).listed ↔ isUnitName unit.name = true ∧ unit ∈ divisors.units := by
  constructor
  · intro h
    refine ⟨isUnitName_of_mem_listed h, ?_⟩
    unfold listed at h
    dsimp only at h
    split at h
    · exact List.mem_of_mem_filter h
    · rcases List.mem_append.mp h with h | h
      · exact List.mem_of_mem_filter h
      · rw [List.mem_singleton.mp h] at hne
        exact absurd rfl hne
  · rintro ⟨hname, h⟩
    exact mem_listed_of_mem h hname

theorem mem_repaired_iff (hne : unit.name ≠ defaultUnit) :
    unit ∈ (perUnit divisors).repaired ↔ unit ∈ (perUnit divisors).listed := by
  unfold repaired
  dsimp only
  rw [List.mem_map]
  constructor
  · rintro ⟨source, hsource, rfl⟩
    -- Units keep their names, so a unit with another name was not replaced.
    split at hne
    · rename_i hdefault
      exact absurd (by simpa using hdefault) hne
    · rename_i hother
      rwa [if_neg hother]
  · intro h
    exact ⟨unit, h, if_neg (by simpa using hne)⟩

end PerUnit

/-- **Every root value lists `px`.** -/
theorem default_mem_listed (root : RootValue) :
    ⟨defaultUnit, root.givenDefault⟩ ∈ root.listed := by
  cases root with
  | uniform divisor => exact List.mem_cons_self
  | perUnit divisors =>
    have hdefault : (perUnit divisors).givenDefault =
        (UnitTable.divisor? divisors.units defaultUnit).getD defaultRootValue := rfl
    rw [hdefault]
    rcases hgiven : UnitTable.divisor? divisors.units defaultUnit with _ | divisor
    · have hmissing : (divisors.units.any fun unit => unit.name == defaultUnit) = false := by
        rw [UnitTable.divisor?_eq_none_iff] at hgiven
        simpa using hgiven
      simp [listed, hmissing]
    · have hunit := (UnitTable.divisor?_eq_some_iff divisors.nodup).mp hgiven
      exact mem_listed_of_mem hunit rfl

theorem defaultDivisor_eq (root : RootValue) : root.defaultDivisor = root.givenDefault := by
  have hfound : UnitTable.divisor? root.listed defaultUnit = some root.givenDefault :=
    (UnitTable.divisor?_eq_some_iff root.nodup_listed).mpr root.default_mem_listed
  obtain ⟨unit, hunit, hdivisor⟩ := Option.map_eq_some_iff.mp hfound
  rw [← hdivisor, defaultDivisor, hunit]

theorem isUsable_iff {root : RootValue} :
    root.isUsable = true ↔ IsPositive root.givenDefault := by
  rw [isUsable, isUsableDivisor_iff, defaultDivisor_eq]

theorem default_mem_repaired (root : RootValue) :
    ⟨defaultUnit, defaultRootValue⟩ ∈ root.repaired := by
  cases root with
  | uniform divisor => exact List.mem_cons_self
  | perUnit divisors =>
    have hlisted := (perUnit divisors).default_mem_listed
    exact List.mem_map.mpr ⟨_, hlisted, rfl⟩

/-! ### The table -/

/-- **What the table of a root value is like.** -/
structure IsTable (root : RootValue) (units : UnitTable) : Prop where
  letters : ∀ unit ∈ units, unit.name ≠ [] ∧ ∀ c ∈ unit.name, c.isAlpha = true
  distinct : (units.map SourceUnit.name).Nodup
  ordered : units.Pairwise SourceUnit.IsBefore
  /-- Lengths in `px` can be converted. -/
  default : units.divisor? defaultUnit = some root.usableDefault ∧ IsPositive root.usableDefault
  /-- One number is for all the usual units.  Of a number for each unit, those with a valid
      name stay as they are, but for `px`. -/
  others : match root with
    | uniform _ => ∃ common, ∀ unit, unit ∈ units ↔ unit.name ∈ usualUnits ∧ unit.divisor = common
    | perUnit divisors => ∀ unit, unit.name ≠ defaultUnit →
        (unit ∈ units ↔ isUnitName unit.name = true ∧ unit ∈ divisors.units)

theorem mem_listed_uniform_iff {divisor : Float} {unit : SourceUnit} :
    unit ∈ (uniform divisor).listed ↔ unit.name ∈ usualUnits ∧ unit.divisor = divisor := by
  rcases unit with ⟨name, common⟩
  simp only [listed, List.mem_map, SourceUnit.mk.injEq]
  constructor
  · rintro ⟨name, hname, rfl, rfl⟩
    exact ⟨hname, rfl⟩
  · rintro ⟨hname, rfl⟩
    exact ⟨name, hname, rfl, rfl⟩

theorem repaired_uniform (divisor : Float) :
    (uniform divisor).repaired = (uniform defaultRootValue).listed := by
  rw [repaired, listed, listed, List.map_map]
  rfl

theorem default_mem_resolve (root : RootValue) :
    ⟨defaultUnit, root.usableDefault⟩ ∈ root.resolve := by
  rw [resolve, UnitTable.mem_ofList, usableDefault]
  by_cases husable : root.isUsable = true
  · rw [if_pos husable, if_pos (isUsable_iff.mp husable)]
    exact root.default_mem_listed
  · rw [if_neg husable, if_neg fun h => husable (isUsable_iff.mpr h)]
    exact root.default_mem_repaired

theorem isTable_resolve (root : RootValue) : root.IsTable root.resolve where
  letters unit hunit := isUnitName_iff.mp (root.isNamed_resolve unit hunit)
  distinct := root.isOrdered_resolve.distinct
  ordered := UnitTable.pairwise_isBefore (UnitTable.pairwise_ofList _)
    root.isOrdered_resolve.distinct
  default := by
    rw [UnitTable.divisor?_eq_some_iff root.isOrdered_resolve.distinct]
    exact ⟨root.default_mem_resolve, root.isPositive_usableDefault⟩
  others := by
    simp only [resolve, UnitTable.mem_ofList]
    cases root with
    | uniform divisor =>
      dsimp only
      split
      · exact ⟨divisor, fun _ => mem_listed_uniform_iff⟩
      · rw [repaired_uniform]
        exact ⟨defaultRootValue, fun _ => mem_listed_uniform_iff⟩
    | perUnit divisors =>
      intro unit hne
      split
      · exact mem_listed_iff hne
      · rw [mem_repaired_iff hne, mem_listed_iff hne]

namespace IsTable

variable {root : RootValue} {units units' : UnitTable} {divisor common : Float}

theorem default_mem_iff (h : root.IsTable units) :
    ⟨defaultUnit, divisor⟩ ∈ units ↔ divisor = root.usableDefault := by
  rw [← UnitTable.divisor?_eq_some_iff h.distinct, h.default.1, Option.some_inj]
  exact eq_comm

/-- The divisor that the usual units have in common is the one of `px`. -/
theorem common_eq (h : root.IsTable units)
    (hcommon : ∀ unit, unit ∈ units ↔ unit.name ∈ usualUnits ∧ unit.divisor = common) :
    common = root.usableDefault :=
  h.default_mem_iff.mp ((hcommon _).mpr ⟨List.mem_cons_self, rfl⟩)

theorem mem_iff (h : root.IsTable units) (h' : root.IsTable units') (unit : SourceUnit) :
    unit ∈ units ↔ unit ∈ units' := by
  have hothers := h.others
  have hothers' := h'.others
  cases root with
  | uniform divisor =>
    obtain ⟨common, hcommon⟩ := hothers
    obtain ⟨common', hcommon'⟩ := hothers'
    rw [hcommon, hcommon', h.common_eq hcommon, h'.common_eq hcommon']
  | perUnit divisors =>
    rcases unit with ⟨name, divisor⟩
    by_cases hname : name = defaultUnit
    · subst hname
      rw [h.default_mem_iff, h'.default_mem_iff]
    · rw [hothers _ hname, hothers' _ hname]

end IsTable

/-- **There is one table for each root value.** -/
theorem isTable_iff {root : RootValue} {units : UnitTable} :
    root.IsTable units ↔ units = root.resolve := by
  constructor
  · intro h
    exact h.ordered.eq_of_mem_iff root.isTable_resolve.ordered (h.mem_iff root.isTable_resolve)
  · rintro rfl
    exact root.isTable_resolve

theorem resolveStrict_eq (root : RootValue) :
    root.resolveStrict =
      if IsPositive root.givenDefault then .ok root.resolve else .error root.givenDefault := by
  rw [resolveStrict, resolve, defaultDivisor_eq]
  by_cases husable : root.isUsable = true
  · rw [if_pos husable, if_pos husable, if_pos (isUsable_iff.mp husable)]
  · rw [if_neg husable, if_neg fun h => husable (isUsable_iff.mpr h)]

end RootValue

/-! ### Converters -/

namespace Converter

theorem ofOptionsStrict_eq (options : Options) :
    ofOptionsStrict options =
      if RootValue.IsPositive options.rootValue.givenDefault then .ok (ofOptions options)
      else .error (.invalidRootValue options.rootValue.givenDefault) := by
  have hstrict := options.rootValue.resolveStrict_eq
  unfold ofOptionsStrict
  split
  · rename_i units hresolve
    rw [hresolve] at hstrict
    split at hstrict
    · rename_i hpositive
      cases hstrict
      rw [if_pos hpositive]
      rfl
    · cases hstrict
  · rename_i divisor hresolve
    rw [hresolve] at hstrict
    split at hstrict
    · cases hstrict
    · rename_i hpositive
      cases hstrict
      rw [if_neg hpositive]

end Converter

/-- **The table of a root value, and when resolving it may fail.**  The root value has one table
    in which each unit is there once, in order, with the divisor that it was given, and `px`
    with a positive one.  It is resolved strictly if and only if the divisor of `px` is positive
    as it was given, or by default, and to the same table.  A converter is made strictly if and
    only if its root value is resolved, and it is the same one. -/
theorem RootValue.isTable_iff_and_strict (root : RootValue) :
    (∀ units, root.IsTable units ↔ units = root.resolve) ∧
      root.resolveStrict =
        (if IsPositive root.givenDefault then .ok root.resolve else .error root.givenDefault) ∧
      ∀ options : Options,
        Converter.ofOptionsStrict { options with rootValue := root } =
          if IsPositive root.givenDefault then
            .ok (Converter.ofOptions { options with rootValue := root })
          else .error (.invalidRootValue root.givenDefault) := by
  refine ⟨fun units => isTable_iff, root.resolveStrict_eq, ?_⟩
  intro options
  exact Converter.ofOptionsStrict_eq { options with rootValue := root }

end EmScale
