/-
  EmScale/Converter/Value.lean
  ============================
  **Converting the lengths of a value.**

  Every length of a value is replaced on its own and everything else is copied.  A length
  with an ignore marker loses the marker.  A length below the threshold stays as it is, and
  so does one whose conversion is not a finite number.  Any other one becomes its number
  divided by the divisor of its unit, rounded, and followed by `em` unless it is zero.
-/
import EmScale.Converter.Basic
import EmScale.Number.Rounding
import EmScale.Value.Scan

namespace EmScale

/-- The unit that lengths are converted to. -/
def targetUnit : Text := ['e', 'm']

namespace Converter

/-- The text of `value / divisor` in the target unit, if that is a finite number (`convert`). -/
def scale? (converter : Converter) (value divisor : Float) : Option Text :=
  let fixed := toFixed (value / divisor) converter.options.unitPrecision
  if !fixed.isFinite then none
  else if fixed == 0.0 then some (formatNumber fixed)
  else some (formatNumber fixed ++ targetUnit)

/-- Whether a length is left alone because it is small. -/
def isBelowMinimum (converter : Converter) (token : Token) : Bool :=
  token.numeral.toFloat.abs < converter.options.minPixelValue

/-- What takes the place of a length, by the cases of `rewrite_value`. -/
def convertToken (converter : Converter) (token : Token) : Text :=
  if token.isIgnored then token.length
  else if converter.isBelowMinimum token then token.print
  else (converter.scale? token.numeral.toFloat token.unit.divisor).getD token.print

def convertSegment (converter : Converter) : Segment → Text
  | .token token => converter.convertToken token
  | .other c => [c]

/-- A value with its lengths converted (`rewrite_value`). -/
def convertValue (converter : Converter) (value : Text) : Text :=
  (Value.scan converter.units converter.marker value).1.flatMap converter.convertSegment

/-- The prelude of a media query with its lengths converted, if that is asked for and changes
    it (`rewrite_media_params`). -/
def convertMedia? (converter : Converter) (params : Text) : Option Text :=
  if converter.options.mediaQuery then
    let converted := converter.convertValue params
    if converted = params then none else some converted
  else none

/-! ### Events -/

def tokenEvents (converter : Converter) (token : Token) : List Event :=
  if token.isIgnored || converter.isBelowMinimum token then []
  else
    match converter.scale? token.numeral.toFloat token.unit.divisor with
    | some result => [.converted token.print result]
    | none => [.notFinite token.print]

def valueEvents (converter : Converter) (value : Text) : List Event :=
  (Value.tokens converter.units converter.marker value).flatMap converter.tokenEvents

def mediaEvents (converter : Converter) (params : Text) : List Event :=
  if converter.options.mediaQuery then converter.valueEvents params else []

end Converter

end EmScale
