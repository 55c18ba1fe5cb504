/-
  EmScale/Options/Matcher.lean
  ============================
  **Entries that pick selectors or files.**

  An entry is a text, which matches wherever it occurs, or a pattern, which matches wherever
  a match of it occurs.  In options both are strings: a pattern is written between slashes
  with flags behind the second one, any other string is a text.

  Regular expressions are left to a compiler.  It takes a text or refuses it, and for one that
  it takes it tells which texts hold a match; nothing else is known of it here.  It is a
  parameter of whatever reads entries, and a compiled pattern is what the compiler gave.
-/
import EmScale.Text
import EmScale.Unicode.Printable

namespace EmScale

/-! ### Patterns -/

/-- What the flags of a pattern ask for. -/
structure PatternFlags where
  ignoreCase : Bool := false
  /-- `^` and `$` stand for the edges of lines. -/
  multiLine : Bool := false
  /-- The dot includes the ends of lines. -/
  dotAll : Bool := false
deriving DecidableEq, Repr, Inhabited

def PatternFlags.ofLetters (letters : Text) : PatternFlags where
  ignoreCase := letters.contains 'i'
  multiLine := letters.contains 'm'
  dotAll := letters.contains 's'

/-- A compiler of regular expressions: for each text that is one, the test whether a match of
    it occurs in a text. -/
abbrev PatternCompiler := PatternFlags → Text → Option (Text → Bool)

/-- A compiled pattern, with the text that it was compiled from. -/
structure Pattern where
  source : Text
  isMatch : Text → Bool
deriving Inhabited

/-- Compiles a pattern. -/
def Pattern.compile? (compiler : PatternCompiler) (flags : PatternFlags) (source : Text) :
    Option Pattern :=
  (compiler flags source).map fun isMatch => { source, isMatch }

/-! ### Entries -/

/-- An entry that picks selectors (`SelectorMatcher`). -/
inductive Matcher where
  | text (t : Text)
  | pattern (p : Pattern)
deriving Inhabited

namespace Matcher

def accepts : Matcher → Text → Bool
  | text part, t => Text.includes part t
  | pattern p, t => p.isMatch t

/-! ### Written form -/

/-- The letters that may stand behind a pattern.  Three of them say something about matching;
    the others are passed over. -/
def flagLetters : Text := "gimsuy".toList

/-- The body and the flags of a text in slashes.  The last slash ends the body; a text with
    an empty body or with other flags is no pattern.  With `parse?` this is the function
    `pattern_literal`, which finds the slash from the end of the text. -/
def slashed? : Text → Option (Text × Text)
  | '/' :: t =>
    let flags := (t.reverse.takeWhile (· != '/')).reverse
    let body := t.take (t.length - flags.length - 1)
    if t.contains '/' && !body.isEmpty && flags.all flagLetters.contains then some (body, flags)
    else none
  | _ => none

/-- Reads an entry.  There is none if the body of a pattern is no regular expression. -/
def parse? (compiler : PatternCompiler) (raw : Text) : Option Matcher :=
  match slashed? raw with
  | none => some (text raw)
  | some (body, flags) => (Pattern.compile? compiler (.ofLetters flags) body).map pattern

/-- Reads a pattern that is not written in slashes. -/
def ofPattern? (compiler : PatternCompiler) (source : Text) : Option Matcher :=
  (Pattern.compile? compiler {} source).map pattern

end Matcher

/-- What picks the files that are passed through as they are. -/
inductive Exclude where
  | matcher (m : Matcher)
  | predicate (test : Text → Bool)
deriving Inhabited

namespace Exclude

def accepts : Exclude → Text → Bool
  | matcher m, path => m.accepts path
  | predicate test, path => test path

/-! ### Description -/

/-- A character as it is shown in a quoted text. -/
def describeCharacter (c : Char) : Text :=
  match c with
  | '"' => ['\\', '"']
  | '\\' => ['\\', '\\']
  | '\n' => ['\\', 'n']
  | '\r' => ['\\', 'r']
  | '\t' => ['\\', 't']
  | '\x00' => ['\\', '0']
  | _ =>
    if Unicode.isPrintable c then [c]
    else '\\' :: 'u' :: '{' :: (Nat.toDigits 16 c.toNat ++ ['}'])

def describeText (t : Text) : Text :=
  '"' :: (t.flatMap describeCharacter ++ ['"'])

def describe : Exclude → Text
  | matcher (.text t) => "Text(".toList ++ describeText t ++ [')']
  | matcher (.pattern p) => "Pattern(Regex(".toList ++ describeText p.source ++ [')', ')']
  | predicate _ => "Predicate(..)".toList

end Exclude

end EmScale
