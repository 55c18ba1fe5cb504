/-
  EmScale/Sheet/Lexis.lean
  ========================
  **Strings, comments, escapes and parentheses.**

  The text of a selector, a prelude or a declaration runs up to a brace or a semicolon
  that stands outside strings, comments, escapes and parentheses.  What a character means
  depends on the characters before it only through a small state, which this file defines
  together with its step on one character.  The state after a text is a fold, so the
  state after a concatenation comes from the states after its parts.

  The source counts the parentheses in `scan_statement` and has the mode in the place where it
  is: in the loop there, in the loop of `skip_string`, in the one over a comment, or behind the
  character that one of them skips.
-/
import EmScale.Text

namespace EmScale

/-- What a text has opened and not closed, apart from parentheses. -/
inductive Mode where
  | plain
  /-- Behind a `/` that a `*` would turn into the start of a comment. -/
  | slash
  /-- Behind a backslash, which takes away the meaning of one character. -/
  | escape
  | quoted (quote : Char)
  | quotedEscape (quote : Char)
  | comment
  /-- In a comment, behind a `*` that a `/` would turn into its end. -/
  | commentStar
deriving DecidableEq, Repr, Inhabited

/-- The state of a scan of statement text: the mode, and the number of open parentheses. -/
structure Lexis where
  mode : Mode := .plain
  depth : Nat := 0
deriving DecidableEq, Repr, Inhabited

namespace Lexis

/-- The step on a character that stands outside strings, comments and escapes.  A closing
    parenthesis that has no partner is ignored. -/
def stepPlain (depth : Nat) (c : Char) : Lexis :=
  if c = '"' ∨ c = '\'' then ⟨.quoted c, depth⟩
  else if c = '/' then ⟨.slash, depth⟩
  else if c = '\\' then ⟨.escape, depth⟩
  else if c = '(' then ⟨.plain, depth + 1⟩
  else if c = ')' then ⟨.plain, depth - 1⟩
  else ⟨.plain, depth⟩

def step (s : Lexis) (c : Char) : Lexis :=
  match s.mode with
  | .plain => stepPlain s.depth c
  | .slash => if c = '*' then ⟨.comment, s.depth⟩ else stepPlain s.depth c
  | .escape => ⟨.plain, s.depth⟩
  | .quoted quote =>
    if c = '\\' then ⟨.quotedEscape quote, s.depth⟩
    else if c = quote then ⟨.plain, s.depth⟩
    else ⟨.quoted quote, s.depth⟩
  | .quotedEscape quote => ⟨.quoted quote, s.depth⟩
  | .comment => if c = '*' then ⟨.commentStar, s.depth⟩ else ⟨.comment, s.depth⟩
  | .commentStar =>
    if c = '/' then ⟨.plain, s.depth⟩
    else if c = '*' then ⟨.commentStar, s.depth⟩
    else ⟨.comment, s.depth⟩

def run (s : Lexis) (t : Text) : Lexis :=
  t.foldl step s

@[simp] theorem run_nil (s : Lexis) : s.run [] = s := rfl

@[simp] theorem run_cons (s : Lexis) (c : Char) (t : Text) :
    s.run (c :: t) = (s.step c).run t := rfl

@[simp] theorem run_append (s : Lexis) (a b : Text) : s.run (a ++ b) = (s.run a).run b :=
  List.foldl_append

/-- Whether the next character stands outside strings, comments and escapes. -/
def isOutside (s : Lexis) : Bool :=
  s.mode = .plain || s.mode = .slash

def inString (s : Lexis) : Bool :=
  match s.mode with
  | .quoted _ | .quotedEscape _ => true
  | _ => false

def inComment (s : Lexis) : Bool :=
  s.mode = .comment || s.mode = .commentStar

/-- Whether the character `c` ends the statement here. -/
def stops (s : Lexis) (c : Char) : Bool :=
  s.isOutside && s.depth == 0 && (c == '{' || c == ';' || c == '}')

/-- Cuts a text in front of the first character that ends the statement. -/
def split (s : Lexis) : Text → Text × Text
  | [] => ([], [])
  | c :: t =>
    if s.stops c then ([], c :: t)
    else
      let (raw, rest) := (s.step c).split t
      (c :: raw, rest)

/-- Whether the statement goes on to the end of a text. -/
def runsThrough (s : Lexis) (t : Text) : Bool :=
  (s.split t).2.isEmpty

/-- The part of a text from the last character on that stood outside, where the `*` of a
    comment's start does not count: the start of the string or comment that is open at the
    end of the text. -/
def lastOutside (s : Lexis) (since : Text) : Text → Text
  | [] => since
  | c :: t =>
    let next := s.step c
    next.lastOutside (if s.isOutside && next.mode ≠ .comment then c :: t else since) t

/-- A text is what `split` makes of it. -/
theorem split_append (s : Lexis) (t : Text) : (s.split t).1 ++ (s.split t).2 = t := by
  induction t generalizing s with
  | nil => rfl
  | cons c t ih =>
    unfold split
    split
    · rfl
    · simp [ih]

end Lexis

end EmScale
