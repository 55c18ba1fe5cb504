/-
  EmScale/Options/Decode.lean
  ===========================
  **Options from JSON.**

  An object sets the options that its keys name.  A value of the wrong shape leaves the
  default in place, and so does a list with one bad element.  Keys that name no option are
  passed over.  Anything but an object gives the defaults.
-/
import EmScale.Event
import EmScale.Options.Basic

namespace EmScale

/-! ### Values of options -/

namespace Json

def toBool? : Json → Option Bool
  | bool b => some b
  | _ => none

def toText? : Json → Option Text
  | string t => some t
  | _ => none

def toFloat? : Json → Option Float
  | number n => some n.toFloat
  | _ => none

/-- A count of decimal places: an integer of 32 bits. -/
def toPrecision? : Json → Option Nat
  | number (.integer n) => if 0 ≤ n ∧ n.toNat < Nat.pow 2 32 then some n.toNat else none
  | _ => none

def toList? {α : Type} (item : Json → Option α) : Json → Option (List α)
  | array items => items.mapM item
  | _ => none

/-- A value that null clears. -/
def toOptional? {α : Type} (value : Json → Option α) : Json → Option (Option α)
  | null => some none
  | j => (value j).map some

/-- A number for all units, or an object with a number for each. -/
def toRootValue? : Json → Option RootValue
  | number n => some (.uniform n.toFloat)
  | object members => do
    let units ← members.mapM fun (name, value) => do
      return ⟨name, ← value.toFloat?⟩
    return .perUnit (.ofList units)
  | _ => none

def toMatcher? (compiler : PatternCompiler) (j : Json) : Option Matcher := do
  Matcher.parse? compiler (← j.toText?)

def toExclude? (compiler : PatternCompiler) (j : Json) : Option Exclude :=
  (j.toMatcher? compiler).map .matcher

end Json

/-! ### Keys -/

/-- The options that can be set. -/
inductive OptionKey where
  | rootValue | unitPrecision | selectorBlackList | propWhiteList | propBlackList
  | replace | mediaQuery | minPixelValue | exclude | ignoreIdentifier
deriving DecidableEq, Repr, Inhabited

namespace OptionKey

def all : List OptionKey :=
  [rootValue, unitPrecision, selectorBlackList, propWhiteList, propBlackList, replace,
    mediaQuery, minPixelValue, exclude, ignoreIdentifier]

def name : OptionKey → Text
  | rootValue => "rootValue".toList
  | unitPrecision => "unitPrecision".toList
  | selectorBlackList => "selectorBlackList".toList
  | propWhiteList => "propWhiteList".toList
  | propBlackList => "propBlackList".toList
  | replace => "replace".toList
  | mediaQuery => "mediaQuery".toList
  | minPixelValue => "minPixelValue".toList
  | exclude => "exclude".toList
  | ignoreIdentifier => "ignoreIdentifier".toList

def ofName? (t : Text) : Option OptionKey :=
  all.find? fun key => key.name == t

end OptionKey

/-! ### Decoding -/

namespace Options

variable (compiler : PatternCompiler)

def set? (options : Options) (key : OptionKey) (value : Json) : Option Options :=
  match key with
  | .rootValue => value.toRootValue?.map fun rootValue => { options with rootValue }
  | .unitPrecision => value.toPrecision?.map fun unitPrecision => { options with unitPrecision }
  | .selectorBlackList =>
    (value.toList? (Json.toMatcher? compiler)).map fun selectorBlackList =>
      { options with selectorBlackList }
  | .propWhiteList =>
    (value.toList? Json.toText?).map fun propWhiteList => { options with propWhiteList }
  | .propBlackList =>
    (value.toList? Json.toText?).map fun propBlackList => { options with propBlackList }
  | .replace => value.toBool?.map fun replace => { options with replace }
  | .mediaQuery => value.toBool?.map fun mediaQuery => { options with mediaQuery }
  | .minPixelValue => value.toFloat?.map fun minPixelValue => { options with minPixelValue }
  | .exclude =>
    (value.toOptional? (Json.toExclude? compiler)).map fun exclude => { options with exclude }
  | .ignoreIdentifier =>
    (value.toOptional? Json.toText?).map fun ignoreIdentifier =>
      { options with ignoreIdentifier }

/-- Sets the option that a member of an object names.  A key that names none, and a value of
    the wrong shape, change nothing. -/
def assign (options : Options) (member : Text × Json) : Options :=
  match OptionKey.ofName? member.1 with
  | some key => (options.set? compiler key member.2).getD options
  | none => options

/-- The options that a JSON value stands for (`from_json_value`). -/
def ofJson : Json → Options
  | .object members => members.foldl (assign compiler) {}
  | _ => {}

/-- What there is to report about one member of an object. -/
def assignEvents (member : Text × Json) : List Event :=
  match OptionKey.ofName? member.1 with
  | none => [.unknownOption member.1]
  | some key => if (set? compiler {} key member.2).isSome then [] else [.invalidOption member.1]

/-- What there is to report about the options that a JSON value stands for. -/
def jsonEvents : Json → List Event
  | .object members => members.flatMap (assignEvents compiler)
  | .null => []
  | j => [.optionsNotObject j]

end Options

end EmScale
