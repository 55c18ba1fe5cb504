/-
  EmScale/Proofs/Units.lean
  =========================
  **The names in a table of units.**

  Every unit of a resolved table has a name of ASCII letters.  So the unit that a text
  starts with shows in the letters that the text starts with.

  Longer names come first in a resolved table, and no name comes twice.  So the first unit
  that a text starts with is the longest one (`UnitTable.startOf?_eq_some_iff`), and each unit
  is the one that its own name starts with (`UnitTable.startOf?_name_iff`).
-/
import EmScale.Proofs.Text
import EmScale.Units

namespace EmScale

open Text (StartsOff)

/-! ### Names -/

namespace UnitTable

/-- A table whose units have names of ASCII letters. -/
def IsNamed (units : UnitTable) : Prop :=
  ∀ unit ∈ units, isUnitName unit.name = true

theorem insert_perm (unit : SourceUnit) (units : UnitTable) :
    (insert unit units).Perm (unit :: units) := by
  induction units with
  | nil => exact List.Perm.refl _
  | cons other rest ih =>
    unfold insert
    split
    · exact List.Perm.refl _
    · exact (ih.cons other).trans (List.Perm.swap unit other rest)

theorem ofList_perm (units : List SourceUnit) : (ofList units).Perm units := by
  induction units with
  | nil => exact List.Perm.refl _
  | cons unit rest ih => exact (insert_perm unit (ofList rest)).trans (ih.cons unit)

theorem mem_insert {unit other : SourceUnit} {units : UnitTable} :
    other ∈ insert unit units ↔ other = unit ∨ other ∈ units :=
  (insert_perm unit units).mem_iff.trans List.mem_cons

theorem mem_ofList {unit : SourceUnit} {units : List SourceUnit} :
    unit ∈ ofList units ↔ unit ∈ units :=
  (ofList_perm units).mem_iff

end UnitTable

namespace RootValue

theorem isUnitName_of_mem_listed {root : RootValue} {unit : SourceUnit}
    (h : unit ∈ root.listed) : isUnitName unit.name = true := by
  cases root with
  | uniform divisor =>
    simp only [listed, usualUnits, List.map_cons, List.map_nil, List.mem_cons,
      List.not_mem_nil, or_false] at h
    rcases h with rfl | rfl <;> rfl
  | perUnit divisors =>
    simp only [listed] at h
    split at h
    · exact (List.mem_filter.mp h).2
    · rcases List.mem_append.mp h with h | h
      · exact (List.mem_filter.mp h).2
      · rw [List.mem_singleton.mp h]
        rfl

theorem isUnitName_of_mem_repaired {root : RootValue} {unit : SourceUnit}
    (h : unit ∈ root.repaired) : isUnitName unit.name = true := by
  cases root with
  | uniform divisor =>
    obtain ⟨source, hsource, rfl⟩ := List.mem_map.mp h
    have hname := isUnitName_of_mem_listed hsource
    exact hname
  | perUnit divisors =>
    obtain ⟨source, hsource, rfl⟩ := List.mem_map.mp h
    have hname := isUnitName_of_mem_listed hsource
    split <;> exact hname

/-- **Resolved units have names of letters.** -/
theorem isNamed_resolve (root : RootValue) : root.resolve.IsNamed := by
  intro unit h
  rw [resolve, UnitTable.mem_ofList] at h
  split at h
  · exact isUnitName_of_mem_listed h
  · exact isUnitName_of_mem_repaired h

end RootValue

/-! ### Looking up units -/

theorem isUnitName_iff {name : Text} :
    isUnitName name = true ↔ name ≠ [] ∧ ∀ c ∈ name, c.isAlpha = true := by
  simp [isUnitName]

namespace UnitTable

theorem mem_of_startOf? {units : UnitTable} {t : Text} {unit : SourceUnit}
    (h : units.startOf? t = some unit) : unit ∈ units :=
  List.mem_of_find?_eq_some h

theorem prefix_of_startOf? {units : UnitTable} {t : Text} {unit : SourceUnit}
    (h : units.startOf? t = some unit) : unit.name <+: t := by
  simpa using List.find?_some h

/-- **The unit that a text starts with shows in its letters.** -/
theorem startOf?_append {units : UnitTable} (hunits : units.IsNamed) {t rest : Text}
    (hrest : StartsOff Char.isAlpha rest) : units.startOf? (t ++ rest) = units.startOf? t := by
  refine List.find?_congr fun unit hunit => ?_
  have hname := (isUnitName_iff.mp (hunits unit hunit)).2
  rw [Bool.eq_iff_iff, List.isPrefixOf_iff_prefix, List.isPrefixOf_iff_prefix]
  exact Text.prefix_append_iff hname hrest

theorem divisor?_eq_none_iff {units : UnitTable} {name : Text} :
    units.divisor? name = none ↔ ∀ unit ∈ units, unit.name ≠ name := by
  simp [divisor?]

/-- **A unit is known by its name** where no name comes twice. -/
theorem divisor?_eq_some_iff {units : UnitTable} (hunits : (units.map SourceUnit.name).Nodup)
    {name : Text} {divisor : Float} :
    units.divisor? name = some divisor ↔ ⟨name, divisor⟩ ∈ units := by
  rw [divisor?, Option.map_eq_some_iff]
  constructor
  · rintro ⟨unit, hunit, rfl⟩
    have hname : unit.name = name := by simpa using List.find?_some hunit
    rw [← hname]
    exact List.mem_of_find?_eq_some hunit
  · intro h
    rcases hfind : units.find? fun unit => unit.name == name with _ | found
    · have hmissed := List.find?_eq_none.mp hfind _ h
      simp at hmissed
    · have hname : found.name = name := by simpa using List.find?_some hfind
      have hsame := List.inj_on_of_nodup_map hunits (List.mem_of_find?_eq_some hfind) h hname
      exact ⟨found, hfind, by rw [hsame]⟩

end UnitTable

/-! ### The order of units -/

namespace UnitTable

/-- A table in which longer names come first and no name comes twice. -/
structure IsOrdered (units : UnitTable) : Prop where
  longest : units.Pairwise fun a b => b.name.length ≤ a.name.length
  distinct : (units.map SourceUnit.name).Nodup

theorem precedes_iff {a b : SourceUnit} :
    a.precedes b = true ↔
      b.name.length < a.name.length ∨ a.name.length = b.name.length ∧ a.name ≤ b.name := by
  simp only [SourceUnit.precedes, Bool.or_eq_true, Bool.and_eq_true, decide_eq_true_eq,
    beq_iff_eq, Bool.not_eq_true', ← Bool.not_eq_true, List.lex_eq_true_iff_lt, not_lt]

theorem length_le_of_precedes {a b : SourceUnit} (h : a.precedes b = true) :
    b.name.length ≤ a.name.length := by
  rcases precedes_iff.mp h with hlonger | ⟨hsame, -⟩ <;> omega

theorem precedes_trans {a b c : SourceUnit} (hab : a.precedes b = true)
    (hbc : b.precedes c = true) : a.precedes c = true := by
  rw [precedes_iff] at *
  rcases hab with hab | ⟨hab, hname⟩
  · rcases hbc with hbc | ⟨hbc, -⟩ <;> exact Or.inl (by omega)
  · rcases hbc with hbc | ⟨hbc, hname'⟩
    · exact Or.inl (by omega)
    · exact Or.inr ⟨hab.trans hbc, hname.trans hname'⟩

theorem precedes_of_not_precedes {a b : SourceUnit} (h : ¬ a.precedes b = true) :
    b.precedes a = true := by
  rw [precedes_iff, not_or, not_and] at h
  obtain ⟨hlength, hname⟩ := h
  rw [precedes_iff]
  rcases Nat.lt_or_eq_of_le (Nat.le_of_not_lt hlength) with hlonger | hsame
  · exact Or.inl hlonger
  · exact Or.inr ⟨hsame.symm, (le_total _ _).resolve_left (hname hsame)⟩

theorem pairwise_insert (unit : SourceUnit) {units : UnitTable}
    (h : units.Pairwise fun a b => a.precedes b = true) :
    (insert unit units).Pairwise fun a b => a.precedes b = true := by
  induction units with
  | nil => exact List.pairwise_singleton _ _
  | cons other rest ih =>
    obtain ⟨hother, hrest⟩ := List.pairwise_cons.mp h
    unfold insert
    split
    · rename_i hprecedes
      apply List.pairwise_cons.mpr
      refine ⟨?_, h⟩
      intro next hnext
      rcases List.mem_cons.mp hnext with rfl | hnext
      · exact hprecedes
      · exact precedes_trans hprecedes (hother next hnext)
    · rename_i hprecedes
      apply List.pairwise_cons.mpr
      refine ⟨?_, ih hrest⟩
      intro next hnext
      rcases mem_insert.mp hnext with rfl | hnext
      · exact precedes_of_not_precedes hprecedes
      · exact hother next hnext

/-- **Tables are in order of precedence.** -/
theorem pairwise_ofList (units : List SourceUnit) :
    (ofList units).Pairwise fun a b => a.precedes b = true := by
  induction units with
  | nil => exact List.Pairwise.nil
  | cons unit rest ih => exact pairwise_insert unit ih

theorem isOrdered_ofList {units : List SourceUnit}
    (h : (units.map SourceUnit.name).Nodup) : (ofList units).IsOrdered := by
  constructor
  · exact (pairwise_ofList units).imp length_le_of_precedes
  · exact ((ofList_perm units).map SourceUnit.name).nodup_iff.mpr h

section Ordered

variable {units : UnitTable} (hunits : units.IsOrdered)

include hunits

theorem IsOrdered.eq_of_name_eq {a b : SourceUnit} (ha : a ∈ units) (hb : b ∈ units)
    (h : a.name = b.name) : a = b :=
  List.inj_on_of_nodup_map hunits.distinct ha hb h

theorem length_le_of_startOf? {t : Text} {unit other : SourceUnit}
    (h : units.startOf? t = some unit) (hother : other ∈ units) (hstarts : other.name <+: t) :
    other.name.length ≤ unit.name.length := by
  obtain ⟨-, front, rest, rfl, hfront⟩ := List.find?_eq_some_iff_append.mp h
  rcases List.mem_append.mp hother with hother | hother
  · have hmissed := hfront other hother
    simp [List.isPrefixOf_iff_prefix.mpr hstarts] at hmissed
  · rcases List.mem_cons.mp hother with rfl | hother
    · exact Nat.le_refl _
    · have hrest := (List.pairwise_append.mp hunits.longest).2.1
      exact (List.pairwise_cons.mp hrest).1 other hother

/-- Two units that a text starts with differ in length. -/
theorem IsOrdered.eq_of_length_eq {a b : SourceUnit} (ha : a ∈ units) (hb : b ∈ units)
    {t : Text} (hat : a.name <+: t) (hbt : b.name <+: t)
    (h : a.name.length = b.name.length) : a = b :=
  hunits.eq_of_name_eq ha hb ((List.prefix_of_prefix_length_le hat hbt h.le).eq_of_length h)

/-- **The unit that a text starts with is the longest one.** -/
theorem startOf?_eq_some_iff {t : Text} {unit : SourceUnit} :
    units.startOf? t = some unit ↔
      unit ∈ units ∧ unit.name <+: t ∧
        ∀ other ∈ units, other.name <+: t → other.name.length ≤ unit.name.length := by
  constructor
  · intro h
    exact ⟨mem_of_startOf? h, prefix_of_startOf? h, fun _ => length_le_of_startOf? hunits h⟩
  · rintro ⟨hunit, hstarts, hlongest⟩
    obtain ⟨found, hfound⟩ : ∃ found, units.startOf? t = some found := by
      rw [← Option.isSome_iff_exists, startOf?, List.find?_isSome]
      exact ⟨unit, hunit, List.isPrefixOf_iff_prefix.mpr hstarts⟩
    have hlisted := mem_of_startOf? hfound
    have hstarts' := prefix_of_startOf? hfound
    have hlength := Nat.le_antisymm (hlongest found hlisted hstarts')
      (length_le_of_startOf? hunits hfound hunit hstarts)
    rw [hfound, hunits.eq_of_length_eq hlisted hunit hstarts' hstarts hlength]

/-- **Each unit of a table is the one that its own name starts with.** -/
theorem startOf?_name_iff {unit : SourceUnit} :
    units.startOf? unit.name = some unit ↔ unit ∈ units := by
  rw [startOf?_eq_some_iff hunits]
  constructor
  · intro h
    exact h.1
  · intro h
    exact ⟨h, List.prefix_rfl, fun other _ hstarts => hstarts.length_le⟩

end Ordered

end UnitTable

namespace RootValue

theorem nodup_listed (root : RootValue) : (root.listed.map SourceUnit.name).Nodup := by
  cases root with
  | uniform divisor =>
    have hnames : (uniform divisor).listed.map SourceUnit.name = usualUnits := rfl
    rw [hnames]
    decide
  | perUnit divisors =>
    have hnamed : ((divisors.units.filter fun unit => isUnitName unit.name).map
        SourceUnit.name).Nodup :=
      divisors.nodup.sublist (List.filter_sublist.map SourceUnit.name)
    unfold listed
    dsimp only
    split
    · exact hnamed
    · rename_i hdefault
      rw [List.map_append]
      apply hnamed.append (List.nodup_singleton _)
      intro name hname hother
      obtain ⟨unit, hunit, rfl⟩ := List.mem_map.mp hname
      apply hdefault
      rw [List.any_eq_true]
      exact ⟨unit, List.mem_of_mem_filter hunit, by simpa using List.mem_singleton.mp hother⟩

theorem map_name_repaired (root : RootValue) :
    root.repaired.map SourceUnit.name = root.listed.map SourceUnit.name := by
  cases root with
  | uniform divisor => exact List.map_map
  | perUnit divisors =>
    unfold repaired
    rw [List.map_map]
    apply List.map_congr_left
    intro unit _
    rw [Function.comp_apply]
    split <;> rfl

/-- **Resolved tables are ordered.** -/
theorem isOrdered_resolve (root : RootValue) : root.resolve.IsOrdered := by
  apply UnitTable.isOrdered_ofList
  split
  · exact root.nodup_listed
  · rw [map_name_repaired]
    exact root.nodup_listed

end RootValue

end EmScale
