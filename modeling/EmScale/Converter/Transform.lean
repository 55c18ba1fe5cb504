/-
  EmScale/Converter/Transform.lean
  ================================
  **Converting a stylesheet.**

  The nodes of a block are dealt with in order.  A decision on a declaration sees the block
  as it is at that moment: what was made of the nodes in front, and the nodes behind as they
  were.  Declarations that were put in are not decided on.  The selector that counts for a
  declaration is that of the rule directly around it; whether a media query is around holds
  at any depth.

  The source's `walk` changes a block in place and goes on by index.  Here the nodes in front of
  the index are `done`, those from it on are still to come, and a step gives what stands in the
  place of the one that it takes.
-/
import EmScale.Converter.Emission
import EmScale.Sheet.Reader

namespace EmScale

/-- What is around a node. -/
structure Surroundings where
  selector : Option Text := none
  inMedia : Bool := false
deriving Repr, Inhabited

def Surroundings.contextOf (around : Surroundings) (decl : Declaration) : DeclarationContext :=
  ⟨decl.prop, decl.value, around.selector, around.inMedia⟩

def AtRule.isMedia (head : AtRule) : Bool :=
  head.isNamed "media".toList

def Surroundings.insideAtRule (around : Surroundings) (head : AtRule) : Surroundings :=
  ⟨none, around.inMedia || head.isMedia⟩

def Surroundings.insideRule (around : Surroundings) (head : Rule) : Surroundings :=
  ⟨some head.selector, around.inMedia⟩

namespace Converter

/-- The head of an at-rule with its prelude converted if it is a media query. -/
def convertHead (converter : Converter) (head : AtRule) : AtRule × Tally :=
  if head.isMedia then
    match converter.convertMedia? head.params with
    | some params => ({ head with params }, { mediaConverted := 1 })
    | none => (head, {})
  else (head, {})

mutual

/-- What stands in the place of a node of `block` afterwards, and what was done. -/
def convertNode (converter : Converter) (around : Surroundings) (block : List Node) :
    Node → List Node × Tally
  | .rule head children =>
    let (children, tally) := converter.convertAll (around.insideRule head) [] children
    ([.rule head children], tally)
  | .atBlock head children =>
    let (converted, first) := converter.convertHead head
    let (children, tally) := converter.convertAll (around.insideAtRule head) [] children
    ([.atBlock converted children], first + tally)
  | .atLine head =>
    let (converted, tally) := converter.convertHead head
    ([.atLine converted], tally)
  | .declaration decl =>
    let decision := converter.decide (around.contextOf decl)
    let (emission, nodes) := decision.emit block decl
    (nodes, emission.tally)
  | .comment note => ([.comment note], {})

/-- What stands in the place of the nodes of a block behind `done`, which are dealt with
    already, and what was done. -/
def convertAll (converter : Converter) (around : Surroundings) (done : List Node) :
    List Node → List Node × Tally
  | [] => ([], {})
  | node :: rest =>
    let (nodes, first) := converter.convertNode around (done ++ node :: rest) node
    let (others, tally) := converter.convertAll around (done ++ nodes) rest
    (nodes ++ others, first + tally)

end

/-- What was done with a stylesheet, and whether it was passed through because of its
    path. -/
structure Report where
  tally : Tally := {}
  excluded : Bool := false
deriving DecidableEq, Repr, Inhabited

/-- Converts a stylesheet, unless its path says that it is passed through. -/
def transform (converter : Converter) (path : Option Text) (sheet : Stylesheet) :
    Stylesheet × Report :=
  if converter.isExcluded path then (sheet, { excluded := true })
  else
    let (nodes, tally) := converter.convertAll {} [] sheet.nodes
    ({ sheet with nodes }, { tally })

/-- Reads, converts and prints a stylesheet (`process_with_report`).  A text that is passed
    through is not read. -/
def process (converter : Converter) (path : Option Text) (css : Text) :
    Except ParseError (Text × Report) :=
  if converter.isExcluded path then .ok (css, { excluded := true })
  else
    match Stylesheet.parse css with
    | .error error => .error error
    | .ok sheet =>
      let (converted, report) := converter.transform path sheet
      .ok (converted.print, report)

/-! ### Events -/

def headEvents (converter : Converter) (head : AtRule) : List Event :=
  if head.isMedia then converter.mediaEvents head.params else []

mutual

def nodeEvents (converter : Converter) (around : Surroundings) : Node → List Event
  | .rule head children => converter.allEvents (around.insideRule head) children
  | .atBlock head children =>
    converter.headEvents head ++ converter.allEvents (around.insideAtRule head) children
  | .atLine head => converter.headEvents head
  | .declaration decl => converter.decideEvents (around.contextOf decl)
  | .comment _ => []

def allEvents (converter : Converter) (around : Surroundings) : List Node → List Event
  | [] => []
  | node :: rest => converter.nodeEvents around node ++ converter.allEvents around rest

end

def transformEvents (converter : Converter) (path : Option Text) (sheet : Stylesheet) :
    List Event :=
  if converter.isExcluded path then [.sheetExcluded path]
  else
    converter.allEvents {} sheet.nodes ++
      [.sheetTransformed path (converter.transform path sheet).2.tally]

/-- What there is to report about a text that is read, converted and printed. -/
def processEvents (converter : Converter) (path : Option Text) (css : Text) : List Event :=
  if converter.isExcluded path then [.sheetExcluded path]
  else
    match Stylesheet.parse css with
    | .error _ => []
    | .ok sheet => converter.transformEvents path sheet

end Converter

end EmScale
