/-
  EmScale/Regex/Basic.lean
  ========================
  **Regular expressions.**

  Expressions are built from literal texts, sets of characters, assertions about a place,
  sequence, choice and repetition.  There are no look-around expressions and no
  back-references, so which places of a text an expression can end at depends on the places
  it may start at alone.  Groups and the eagerness of repetition do not bear on whether a text
  matches; they are kept because the size of an expression depends on them.

  These modules are one compiler of patterns, `Regex.compile?`, for the converter to run with.
  What converters do is defined and proved for any compiler (`PatternCompiler`).

  Expressions are made by `concat`, `alternation`, `repeating` and `ofSet`, which bring them
  into a simple form: a sequence has no empty parts, no sequences in front and no two literals
  side by side, a choice between single characters is a set, and what all choices start with
  is written once.
-/
import EmScale.Regex.CharSet
import EmScale.Text

namespace EmScale.Regex

/-! ### Assertions -/

inductive Alphabet where
  | unicode | ascii
deriving DecidableEq, Repr, Inhabited

def Alphabet.isWord : Alphabet → Char → Bool
  | unicode, c => Unicode.isWordCharacter c
  | ascii, c => c.isAlphanum || c == '_'

/-- What can be asked about a place of a text. -/
inductive Assertion where
  | textStart | textEnd
  /-- The edges of lines; `crlf` tells whether a carriage return ends lines as well. -/
  | lineStart (crlf : Bool) | lineEnd (crlf : Bool)
  | wordBoundary (a : Alphabet) | noWordBoundary (a : Alphabet)
  | wordStart (a : Alphabet) | wordEnd (a : Alphabet)
  /-- No word character in front; no word character behind. -/
  | wordStartHalf (a : Alphabet) | wordEndHalf (a : Alphabet)
deriving DecidableEq, Repr, Inhabited

/-- A place between two characters; nothing lies beyond the edges of the text. -/
abbrev Gap := Option Char × Option Char

/-- Whether an assertion holds at a place.  No line starts or ends between a carriage return
    and the line feed behind it, if carriage returns end lines. -/
def Assertion.holds (a : Assertion) (gap : Gap) : Bool :=
  let (front, behind) := gap
  let word (a : Alphabet) (c : Option Char) : Bool := c.any a.isWord
  match a with
  | textStart => front.isNone
  | textEnd => behind.isNone
  | lineStart false => front.all (· == '\n')
  | lineEnd false => behind.all (· == '\n')
  | lineStart true => front.all fun c => c == '\n' || (c == '\r' && behind != some '\n')
  | lineEnd true => behind.all fun c => c == '\r' || (c == '\n' && front != some '\r')
  | wordBoundary a => word a front != word a behind
  | noWordBoundary a => word a front == word a behind
  | wordStart a => !word a front && word a behind
  | wordEnd a => word a front && !word a behind
  | wordStartHalf a => !word a front
  | wordEndHalf a => !word a behind

/-! ### Expressions -/

inductive Expr where
  | empty
  | literal (t : Text)
  | set (s : CharSet)
  | assertion (a : Assertion)
  | seq (a b : Expr)
  | alt (a b : Expr)
  /-- At least `min` times, and at most `max` times if a number is given; as often as it can,
      or `lazily` as seldom as it can. -/
  | repeated (e : Expr) (min : Nat) (max : Option Nat) (lazily : Bool)
  /-- A group, by its number. -/
  | group (number : Nat) (e : Expr)
deriving DecidableEq, Repr, Inhabited

namespace Expr

/-! ### Lengths of matches -/

def codeSize (n : Nat) : Nat :=
  if n < 0x80 then 1 else if n < 0x800 then 2 else if n < 0x10000 then 3 else 4

/-- The least length of a match in bytes; none if there is no match at all. -/
def minLength : Expr → Option Nat
  | empty | assertion _ => some 0
  | literal t => some (Text.byteSize t)
  | set s => s.intervals.head?.map fun i => codeSize i.first
  | seq a b => a.minLength.bind fun m => b.minLength.map fun n => m + n
  | alt a b => a.minLength.bind fun m => b.minLength.map fun n => Nat.min m n
  | repeated e min _ _ => e.minLength.map fun n => n * min
  | group _ e => e.minLength

/-- The greatest length of a match in bytes; none if there is no match or no bound. -/
def maxLength : Expr → Option Nat
  | empty | assertion _ => some 0
  | literal t => some (Text.byteSize t)
  | set s => s.intervals.getLast?.map fun i => codeSize i.last
  | seq a b => a.maxLength.bind fun m => b.maxLength.map fun n => m + n
  | alt a b => a.maxLength.bind fun m => b.maxLength.map fun n => Nat.max m n
  | repeated e _ max _ => max.bind fun m => e.maxLength.map fun n => n * m
  | group _ e => e.maxLength

/-- Whether an expression matches the empty text at most. -/
def isEmptyAtMost (e : Expr) : Bool := e.maxLength == some 0

/-! ### Parts -/

def parts : Expr → List Expr
  | seq a b => a :: b.parts
  | e => [e]

def choices : Expr → List Expr
  | alt a b => a :: b.choices
  | e => [e]

/-- The number of expressions inside an expression, itself included. -/
def nodes : Expr → Nat
  | empty | literal _ | set _ | assertion _ => 1
  | seq a b | alt a b => a.nodes + b.nodes + 1
  | repeated e _ _ _ | group _ e => e.nodes + 1

/-- The set of single characters that an expression stands for. -/
def toSet? : Expr → Option CharSet
  | set s => some s
  | literal [c] => some (.single c)
  | _ => none

/-! ### Making expressions -/

def ofSet (s : CharSet) : Expr :=
  match s.character? with
  | some c => literal [c]
  | none => set s

def cons : Expr → Expr → Expr
  | empty, rest => rest
  | e, empty => e
  | literal s, literal t => literal (s ++ t)
  | literal s, seq (literal t) rest => seq (literal (s ++ t)) rest
  | e, rest => seq e rest

def append : Expr → Expr → Expr
  | seq a b, e => cons a (b.append e)
  | a, e => cons a e

def concat (es : List Expr) : Expr := es.foldr append empty

/-- Any of several expressions, as they are. -/
def anyOf : List Expr → Expr
  | [] => set {}
  | [e] => e
  | e :: es => alt e (anyOf es)

/-- The parts that two sequences both start with. -/
def commonParts : List Expr → List Expr → List Expr
  | a :: as, b :: bs => if a = b then a :: commonParts as bs else []
  | _, _ => []

/-- The parts that all of several sequences start with; none if one of them is no
    sequence. -/
def sharedParts : List Expr → List Expr
  | [] => []
  | e :: es =>
    if (e :: es).all fun e => e matches seq .. then
      es.foldl (fun shared e => commonParts shared e.parts) e.parts
    else []

/-- Any of several expressions, with what they all start with written once.  Every round
    takes away parts, so as many rounds as there are expressions are enough. -/
def alternationIn : Nat → List Expr → Expr
  | 0, es => anyOf es
  | rounds + 1, es =>
    let es := es.flatMap choices
    if es.length < 2 then anyOf es
    else
      match es.mapM toSet? with
      | some sets => ofSet (sets.foldl CharSet.union {})
      | none =>
        match sharedParts es with
        | [] => anyOf es
        | shared =>
          let rest := es.map fun e => concat (e.parts.drop shared.length)
          concat (shared ++ [alternationIn rounds rest])

/-- Any of several expressions. -/
def alternation (es : List Expr) : Expr :=
  alternationIn (es.foldr (fun e count => e.nodes + count) 1) es

/-- An expression several times.  What matches the empty text only is not repeated. -/
def repeating (e : Expr) (min : Nat) (max : Option Nat) (lazily : Bool) : Expr :=
  let (min, max) :=
    if e.isEmptyAtMost then (Nat.min min 1, some (Nat.min (max.getD 1) 1)) else (min, max)
  if max = some 0 then empty
  else if min = 1 ∧ max = some 1 then e
  else repeated e min max lazily

end Expr

end EmScale.Regex
