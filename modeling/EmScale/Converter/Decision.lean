/-
  EmScale/Converter/Decision.lean
  ===============================
  **What happens to a declaration.**

  A declaration is kept if its rule or its property is left alone or if conversion does not
  change its value.  Otherwise its value is replaced, or a declaration with the new value is
  put behind it.
-/
import EmScale.Converter.Value

namespace EmScale

/-- A declaration and where it stands. -/
structure DeclarationContext where
  prop : Text
  value : Text
  /-- The selector of the rule it stands in; none directly in an at-rule or at the root. -/
  selector : Option Text := none
  /-- Whether a media query is around it. -/
  inMedia : Bool := false
deriving Repr, Inhabited

/-- What to do with a declaration. -/
inductive Decision where
  | keep
  | replace (value : Text)
  /-- Put a declaration with this value behind it. -/
  | append (value : Text)
deriving DecidableEq, Repr, Inhabited

/-! ### Filters -/

/-- Whether one of the entries picks a selector. -/
def isSelectorBlacklisted (blackList : List Matcher) (selector : Text) : Bool :=
  blackList.any fun entry => entry.accepts selector

/-- Whether declarations of a property are converted: it is listed in the first list, unless
    that is empty, and contains no text of the second. -/
def isPropEligible (whiteList blackList : List Text) (prop : Text) : Bool :=
  (whiteList.isEmpty || whiteList.contains prop) &&
    !blackList.any fun part => Text.includes part prop

/-- Whether a file is passed through; one without a path never is. -/
def isPathExcluded (exclude : Option Exclude) (path : Option Text) : Bool :=
  match exclude, path with
  | some exclude, some path => exclude.accepts path
  | _, _ => false

namespace Converter

def isBlacklisted (converter : Converter) (context : DeclarationContext) : Bool :=
  context.selector.any (isSelectorBlacklisted converter.options.selectorBlackList)

def isEligible (converter : Converter) (context : DeclarationContext) : Bool :=
  isPropEligible converter.options.propWhiteList converter.options.propBlackList context.prop

/-- Whether the name of a unit occurs in a value; no length is in a value without one. -/
def mentionsUnit (converter : Converter) (value : Text) : Bool :=
  converter.units.any fun unit => Text.includes unit.name value

/-- What happens to a declaration. -/
def decide (converter : Converter) (context : DeclarationContext) : Decision :=
  if converter.isBlacklisted context || !converter.isEligible context ||
      !converter.mentionsUnit context.value then .keep
  else
    let converted := converter.convertValue context.value
    if converted = context.value then .keep
    else if converter.options.replace then .replace converted
    else .append converted

def isExcluded (converter : Converter) (path : Option Text) : Bool :=
  isPathExcluded converter.options.exclude path

/-! ### Events -/

/-- What there is to report about a decision. -/
def decideEvents (converter : Converter) (context : DeclarationContext) : List Event :=
  if converter.isBlacklisted context then
    [.selectorBlacklisted (context.selector.getD []) context.prop]
  else if !converter.isEligible context then [.propertyNotEligible context.prop]
  else if !converter.mentionsUnit context.value then []
  else
    let converted := converter.convertValue context.value
    converter.valueEvents context.value ++
      if converted = context.value then []
      else [.changed context.prop context.value converted context.inMedia]

end Converter

end EmScale
