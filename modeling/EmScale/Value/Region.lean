/-
  EmScale/Value/Region.lean
  =========================
  **Where in a value lengths are looked for.**

  Lengths are found outside quoted strings and outside the argument of `url(`.  They start
  at the edge of a word: at the start of the value or behind a character that no word goes
  on from.  Both facts depend on the characters before a place only through a small state,
  which this file defines together with its step on one character.

  The source looks back one character for the edge of a word and ahead for the four of `url(`
  (`step_normal`), and skips the character behind a backslash (`step_quoted` and `step_url` do
  so as well).  Here what lies ahead or behind there is in the state.
-/
import EmScale.Text
import EmScale.Unicode.Alphanumeric

namespace EmScale

open Unicode (isAlphanumeric)

/-- Whether a character behind this one belongs to the same word (`continues_token`). -/
def continuesWord (c : Char) : Bool :=
  isAlphanumeric c || c == '_' || c == '-' || c == '.' || c == '#' || c == '\\'

/-- How far a word has come. -/
inductive Word where
  /-- No word is open: one may start here. -/
  | edge
  | inside
  /-- Behind `u`, `ur` and `url` at the start of a word. -/
  | u | ur | url
deriving DecidableEq, Repr, Inhabited

namespace Word

/-- The state of the word behind the character `c`, whatever was before. -/
def behind (c : Char) : Word :=
  if continuesWord c then inside else edge

def next (w : Word) (c : Char) : Word :=
  match w, c with
  | edge, 'u' => u
  | u, 'r' => ur
  | ur, 'l' => url
  | _, c => behind c

end Word

/-- What a value has opened and not closed. -/
inductive Region where
  | free (word : Word)
  /-- Behind a backslash, which takes away the meaning of one character. -/
  | escape
  | quoted (quote : Char)
  | quotedEscape (quote : Char)
  /-- In the argument of `url(`, within a quoted string or not. -/
  | url (quote : Option Char)
  | urlEscape (quote : Option Char)
deriving DecidableEq, Repr, Inhabited

namespace Region

def start : Region := free .edge

def step (r : Region) (c : Char) : Region :=
  match r with
  | free word =>
    if c = '\'' ∨ c = '"' then quoted c
    else if c = '\\' then escape
    else if c = '(' ∧ word = .url then url none
    else free (word.next c)
  | escape => free (Word.behind c)
  | quoted quote =>
    if c = '\\' then quotedEscape quote
    else if c = quote then free .edge
    else quoted quote
  | quotedEscape quote => quoted quote
  | url none =>
    if c = '\\' then urlEscape none
    else if c = '\'' ∨ c = '"' then url (some c)
    else if c = ')' then free .edge
    else url none
  | url (some quote) =>
    if c = '\\' then urlEscape (some quote)
    else if c = quote then url none
    else url (some quote)
  | urlEscape quote => url quote

def run (r : Region) (t : Text) : Region :=
  t.foldl step r

@[simp] theorem run_nil (r : Region) : r.run [] = r := rfl

@[simp] theorem run_cons (r : Region) (c : Char) (t : Text) :
    r.run (c :: t) = (r.step c).run t := rfl

@[simp] theorem run_append (r : Region) (a b : Text) : r.run (a ++ b) = (r.run a).run b :=
  List.foldl_append

/-- Whether a length may start here. -/
def isEdge (r : Region) : Bool :=
  r = free .edge

end Region

end EmScale
