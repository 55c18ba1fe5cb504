/-
  EmScale/Event.lean
  ==================
  **What there is to report about a run.**

  Reading options, resolving units and converting values leave a trace of events.  Each part
  of the library that can cause events has a function that lists them, next to the function
  that computes the result; results never depend on events.
-/
import EmScale.Json.Basic

namespace EmScale

/-- What one transformation of a stylesheet did. -/
structure Tally where
  /-- Declarations whose value was replaced. -/
  replaced : Nat := 0
  /-- Declarations that were inserted behind another one. -/
  fallbacks : Nat := 0
  /-- Conversions left out because the block already held their result. -/
  skippedDuplicates : Nat := 0
  /-- Preludes of media queries that were converted. -/
  mediaConverted : Nat := 0
deriving DecidableEq, Repr, Inhabited

namespace Tally

instance : Add Tally :=
  ⟨fun a b => ⟨a.replaced + b.replaced, a.fallbacks + b.fallbacks,
    a.skippedDuplicates + b.skippedDuplicates, a.mediaConverted + b.mediaConverted⟩⟩

end Tally

/-- How much an event matters. -/
inductive Level where
  | trace | debug | warn
deriving DecidableEq, Repr

/-- Something that happened. -/
inductive Event where
  /-- Options that are neither an object nor null. -/
  | optionsNotObject (value : Json)
  | invalidOption (key : Text)
  | unknownOption (key : Text)
  | invalidUnitName (unit : Text)
  | unusableRootValue (value fallback : Float)
  /-- A length was converted. -/
  | converted (source result : Text)
  /-- A length was left as it is because its conversion is not a finite number. -/
  | notFinite (token : Text)
  | selectorBlacklisted (selector prop : Text)
  | propertyNotEligible (prop : Text)
  /-- The value of a declaration changes. -/
  | changed (prop source result : Text) (inMedia : Bool)
  | sheetExcluded (path : Option Text)
  | sheetTransformed (path : Option Text) (tally : Tally)
deriving Inhabited

namespace Event

def level : Event → Level
  | optionsNotObject _ | invalidOption _ | invalidUnitName _ | unusableRootValue .. => .warn
  | converted .. | changed .. => .trace
  | unknownOption _ | notFinite _ | selectorBlacklisted .. | propertyNotEligible _
  | sheetExcluded _ | sheetTransformed .. => .debug

def message : Event → Text
  | optionsNotObject _ => "options must be an object; using defaults".toList
  | invalidOption _ => "invalid option value; keeping default".toList
  | unknownOption _ => "ignoring unknown option".toList
  | invalidUnitName _ => "ignoring root value for invalid unit name".toList
  | unusableRootValue .. => "root value must be positive; using default".toList
  | converted .. => "converted length".toList
  | notFinite _ => "quotient is not finite; left unconverted".toList
  | selectorBlacklisted .. => "selector blacklisted".toList
  | propertyNotEligible _ => "property not eligible".toList
  | changed .. => "rewrote declaration".toList
  | sheetExcluded _ => "stylesheet excluded".toList
  | sheetTransformed .. => "transformed stylesheet".toList

end Event

end EmScale
