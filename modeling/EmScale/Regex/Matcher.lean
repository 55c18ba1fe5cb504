/-
  EmScale/Regex/Matcher.lean
  ==========================
  **Search for a regular expression in a text.**

  A set of places of a text is a list of marks, one for each gap between characters, the
  edges included.  An expression takes the places where a match may start to the places
  where one may end.  A text contains a match if any place can be reached from any place.

  With the reader this makes a compiler of patterns (`Regex.compile?`), the one that the
  converter runs with.
-/
import EmScale.Options.Matcher
import EmScale.Regex.Reader

namespace EmScale.Regex

/-- For each gap of a text, whether it is in the set. -/
abbrev Marks := List Bool

def gaps (front : Option Char) : Text → List Gap
  | [] => [(front, none)]
  | c :: t => (front, some c) :: gaps (some c) t

def Marks.union (a b : Marks) : Marks :=
  List.zipWith (· || ·) a b

/-- The places behind a character of `s` that one of the places is in front of. -/
def Marks.over (t : Text) (s : CharSet) (marks : Marks) : Marks :=
  false :: List.zipWith (fun c mark => mark && s.contains c) t marks

/-- The places of a set where an assertion holds. -/
def Marks.keeping (t : Text) (a : Assertion) (marks : Marks) : Marks :=
  List.zipWith (fun gap mark => mark && a.holds gap) (gaps none t) marks

/-- The places reached by `n` steps.  Steps that change nothing are not repeated. -/
def Marks.iterate (step : Marks → Marks) : Nat → Marks → Marks
  | 0, marks => marks
  | n + 1, marks =>
    let next := step marks
    if next = marks then marks else iterate step n next

/-- The places reached by up to `n` steps. -/
def Marks.closure (step : Marks → Marks) : Nat → Marks → Marks
  | 0, marks => marks
  | n + 1, marks =>
    let more := marks.union (step marks)
    if more = marks then marks else closure step n more

/-- The places where a match that starts at one of the places may end.  Every round of an
    unbounded repetition that matters adds a place, so as many rounds as there are places
    are enough. -/
def Expr.ends (t : Text) : Expr → Marks → Marks
  | empty, marks => marks
  | literal s, marks => s.foldl (fun marks c => marks.over t (.single c)) marks
  | set s, marks => marks.over t s
  | assertion a, marks => marks.keeping t a
  | seq a b, marks => b.ends t (a.ends t marks)
  | alt a b, marks => (a.ends t marks).union (b.ends t marks)
  | repeated e min max _, marks =>
    (marks.iterate (e.ends t) min).closure (e.ends t)
      ((max.map fun n => n - min).getD (t.length + 1))
  | group _ e, marks => e.ends t marks

/-- Whether a match of an expression occurs in a text. -/
def Expr.isMatch (e : Expr) (t : Text) : Bool :=
  (e.ends t (List.replicate (t.length + 1) true)).any id

/-- Compiles a pattern for the search in texts. -/
def compile? : PatternCompiler := fun flags body =>
  (parse? {
    ignoreCase := flags.ignoreCase, multiLine := flags.multiLine,
    dotAll := flags.dotAll } body).map Expr.isMatch

end EmScale.Regex
