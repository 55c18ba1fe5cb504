/-
  EmScale/Options/Basic.lean
  ==========================
  **What can be set.**
-/
import EmScale.Options.Matcher
import EmScale.Units

namespace EmScale

/-- How lengths are converted, and where. -/
structure Options where
  /-- How many source units make one `em`. -/
  rootValue : RootValue := .uniform defaultRootValue
  /-- How many decimal places a converted length has at most. -/
  unitPrecision : Nat := 5
  /-- Rules whose declarations are left alone, by their selectors. -/
  selectorBlackList : List Matcher := []
  /-- The properties that are converted; all if there is none. -/
  propWhiteList : List Text := []
  /-- Properties that contain one of these texts are not converted. -/
  propBlackList : List Text := []
  /-- Whether the converted value takes the place of the value, or is put behind it in a
      declaration of its own. -/
  replace : Bool := true
  /-- Whether the preludes of media queries are converted. -/
  mediaQuery : Bool := false
  /-- Numbers whose absolute value is less than this are left alone. -/
  minPixelValue : Float := 0.0
  /-- Files that are passed through as they are. -/
  exclude : Option Exclude := none
  /-- What in front of a number keeps it from being converted. -/
  ignoreIdentifier : Option Text := none
deriving Inhabited

end EmScale
