/-
  EmScale/Converter/Basic.lean
  ============================
  **Converters: options with their units resolved.**

  A converter is made from options in one of two ways.  Both give the same converter where
  the divisor of `px` is usable; where it is not, one takes the default and the other fails.
-/
import EmScale.Event
import EmScale.Number.Shortest
import EmScale.Options.Basic

namespace EmScale

/-- Why a converter cannot be made. -/
inductive ConfigError where
  /-- The divisor of `px` is not a positive number. -/
  | invalidRootValue (divisor : Float)
  /-- A pattern is no regular expression. -/
  | invalidPattern (raw : Text)
  /-- The text of the options is no JSON. -/
  | malformed
deriving Inhabited

/-- What is wrong with a divisor, in words. -/
def invalidRootValueMessage (divisor : Float) : Text :=
  "root value for '".toList ++ defaultUnit ++ "' must be a positive number, got ".toList ++
    printShortest divisor

/-- Options and the table of their root value. -/
structure Converter where
  options : Options
  units : UnitTable
  units_eq : units = options.rootValue.resolve

instance : Inhabited Converter := ⟨⟨{}, _, rfl⟩⟩

theorem RootValue.resolve_eq_of_resolveStrict {root : RootValue} {units : UnitTable}
    (h : root.resolveStrict = .ok units) : units = root.resolve := by
  unfold resolveStrict at h
  split at h
  · rename_i usable
    cases h
    simp [resolve, usable]
  · cases h

namespace Converter

/-- The converter of options, with the default for a divisor that is unusable. -/
def ofOptions (options : Options) : Converter :=
  ⟨options, options.rootValue.resolve, rfl⟩

/-- The converter of options, if the divisor of `px` is usable (`try_new`). -/
def ofOptionsStrict (options : Options) : Except ConfigError Converter :=
  match h : options.rootValue.resolveStrict with
  | .ok units => .ok ⟨options, units, RootValue.resolve_eq_of_resolveStrict h⟩
  | .error divisor => .error (.invalidRootValue divisor)

/-- What keeps a number from being converted; the empty text if nothing does. -/
def marker (converter : Converter) : Text :=
  converter.options.ignoreIdentifier.getD []

end Converter

/-! ### Events -/

/-- What there is to report about the names of units. -/
def RootValue.nameEvents (root : RootValue) : List Event :=
  root.rejectedNames.map .invalidUnitName

/-- What there is to report when a root value is resolved with the default at hand. -/
def RootValue.events (root : RootValue) : List Event :=
  root.nameEvents ++
    if root.isUsable then [] else [.unusableRootValue root.defaultDivisor defaultRootValue]

end EmScale
