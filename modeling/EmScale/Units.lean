/-
  EmScale/Units.lean
  ==================
  **Which units are converted, and by what they are divided.**

  A root value says how many source units make one `em`: one number for the units `px` and
  `rpx`, or a number for each unit by name.  It is resolved once into a table.  The table
  always has the unit `px`, and the divisor of `px` is finite and positive; the divisors of
  other units are taken as they are.  Longer names come first in the table, so the first
  name that a text starts with is the longest one.
-/
import EmScale.Number.Binary64
import EmScale.Text

namespace EmScale

/-! ### Root values -/

/-- A unit of length that is converted: its name and how many of it make one `em`. -/
structure SourceUnit where
  name : Text
  divisor : Float
deriving Inhabited

/-- Divisors by name; each name has one. -/
structure Divisors where
  units : List SourceUnit
  nodup : (units.map SourceUnit.name).Nodup

/-- Keeps the last unit of each name. -/
def keepLast : List SourceUnit → List SourceUnit
  | [] => []
  | unit :: rest =>
    if unit.name ∈ rest.map SourceUnit.name then keepLast rest else unit :: keepLast rest

theorem keepLast_sublist (units : List SourceUnit) : (keepLast units).Sublist units := by
  induction units with
  | nil => exact .slnil
  | cons unit rest ih =>
    unfold keepLast
    split
    · exact ih.cons unit
    · exact ih.cons_cons unit

theorem keepLast_nodup (units : List SourceUnit) :
    ((keepLast units).map SourceUnit.name).Nodup := by
  induction units with
  | nil => exact List.nodup_nil
  | cons unit rest ih =>
    unfold keepLast
    split
    · exact ih
    · rename_i fresh
      refine List.nodup_cons.2 ⟨fun kept => fresh ?_, ih⟩
      exact ((keepLast_sublist rest).map SourceUnit.name).subset kept

/-- The divisors of a list of units; of two with one name the later one counts. -/
def Divisors.ofList (units : List SourceUnit) : Divisors :=
  ⟨keepLast units, keepLast_nodup units⟩

/-- How many source units make one `em`. -/
inductive RootValue where
  /-- One divisor for all the usual units. -/
  | uniform (divisor : Float)
  /-- A divisor for each unit. -/
  | perUnit (divisors : Divisors)

/-! ### Defaults -/

/-- The divisor that is used where none is given, or none that can be. -/
def defaultRootValue : Float := 100.0

/-- The unit that every table has. -/
def defaultUnit : Text := ['p', 'x']

/-- The units that a single divisor is for. -/
def usualUnits : List Text := [['p', 'x'], ['r', 'p', 'x']]

instance : Inhabited RootValue := ⟨.uniform defaultRootValue⟩

/-! ### Resolution -/

/-- Names of units are runs of ASCII letters. -/
def isUnitName (name : Text) : Bool :=
  !name.isEmpty && name.all Char.isAlpha

/-- A divisor that lengths can be divided by in earnest. -/
def isUsableDivisor (divisor : Float) : Bool :=
  divisor.isFinite && 0.0 < divisor

/-- Longer names first, names of one length in alphabetical order. -/
def SourceUnit.precedes (a b : SourceUnit) : Bool :=
  b.name.length < a.name.length || (a.name.length == b.name.length && !b.name.lex a.name)

/-- The units in order of precedence. -/
abbrev UnitTable := List SourceUnit

namespace UnitTable

/-- Puts a unit in front of the first one that it precedes. -/
def insert (unit : SourceUnit) : UnitTable → UnitTable
  | [] => [unit]
  | other :: rest =>
    if unit.precedes other then unit :: other :: rest else other :: insert unit rest

/-- Units in order of precedence, sorted by insertion (`from_entries`). -/
def ofList (units : List SourceUnit) : UnitTable :=
  units.foldr insert []

end UnitTable

namespace RootValue

/-- The units that a root value is for, `px` among them (`raw_entries`). -/
def listed : RootValue → List SourceUnit
  | uniform divisor => usualUnits.map fun name => ⟨name, divisor⟩
  | perUnit divisors =>
    let named := divisors.units.filter fun unit => isUnitName unit.name
    if divisors.units.any fun unit => unit.name == defaultUnit then named
    else named ++ [⟨defaultUnit, defaultRootValue⟩]

/-- The names that are passed over because they are no names of units. -/
def rejectedNames : RootValue → List Text
  | uniform _ => []
  | perUnit divisors =>
    (divisors.units.filter fun unit => !isUnitName unit.name).map SourceUnit.name

def defaultDivisor (root : RootValue) : Float :=
  match root.listed.find? fun unit => unit.name == defaultUnit with
  | some unit => unit.divisor
  | none => defaultRootValue

def isUsable (root : RootValue) : Bool :=
  isUsableDivisor root.defaultDivisor

/-- The units with the default divisor for `px`, and for all usual units if they have one
    divisor in common. -/
def repaired (root : RootValue) : List SourceUnit :=
  match root with
  | uniform _ => root.listed.map fun unit => { unit with divisor := defaultRootValue }
  | perUnit _ =>
    root.listed.map fun unit =>
      if unit.name == defaultUnit then { unit with divisor := defaultRootValue } else unit

/-- The table of a root value (`resolve_lenient`).  An unusable divisor for `px` is replaced by
    the default. -/
def resolve (root : RootValue) : UnitTable :=
  .ofList (if root.isUsable then root.listed else root.repaired)

/-- The table of a root value, or the divisor of `px` if it is unusable (`resolve` in the
    source). -/
def resolveStrict (root : RootValue) : Except Float UnitTable :=
  if root.isUsable then .ok (.ofList root.listed)
  else .error root.defaultDivisor

end RootValue

/-! ### Looking up units -/

namespace UnitTable

def divisor? (units : UnitTable) (name : Text) : Option Float :=
  (units.find? fun unit => unit.name == name).map SourceUnit.divisor

/-- The first unit that a text starts with (`match_prefix`). -/
def startOf? (units : UnitTable) (t : Text) : Option SourceUnit :=
  units.find? fun unit => unit.name.isPrefixOf t

end UnitTable

end EmScale
