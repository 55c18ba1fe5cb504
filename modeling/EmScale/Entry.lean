/-
  EmScale/Entry.lean
  ==================
  **Converting a text with options as a text.**

  Options are given as JSON; a blank text stands for the defaults.  Of two faults the one in
  the options is reported.  What reads JSON and what compiles patterns are parameters.
-/
import EmScale.Converter.Transform
import EmScale.Diagnostic
import EmScale.Options.Decode

namespace EmScale

/-- Why a text cannot be converted. -/
inductive ConversionError where
  /-- The options are no JSON. -/
  | options
  | parse (error : ParseError)
deriving DecidableEq, Repr

def ConversionError.diagnostic : ConversionError → Diagnostic
  | options => {}
  | parse error => error.diagnostic

section

variable (readJson? : Text → Option Json) (compiler : PatternCompiler)

/-- The options of a text, with what there is to report about them.  There are none if the
    text is no JSON. -/
def readOptions? (source : Text) : Option (Options × List Event) :=
  if (Text.trimStart source).isEmpty then some ({}, [])
  else
    (readJson? source).map fun json =>
      (Options.ofJson compiler json, Options.jsonEvents compiler json)

/-- Converts a text with options as a text (`transform_internal`). -/
def convertText (css optionsSource : Text) (path : Option Text) :
    Except ConversionError (Text × Converter.Report) :=
  match readOptions? readJson? compiler optionsSource with
  | none => .error .options
  | some (options, _) =>
    match (Converter.ofOptions options).process path css with
    | .error error => .error (.parse error)
    | .ok result => .ok result

def convertTextEvents (css optionsSource : Text) (path : Option Text) : List Event :=
  match readOptions? readJson? compiler optionsSource with
  | none => []
  | some (options, events) =>
    events ++ options.rootValue.events ++ (Converter.ofOptions options).processEvents path css

end

end EmScale
