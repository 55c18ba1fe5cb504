/-
  EmScale/Regex/Automaton.lean
  ============================
  **How large the automata of an expression are.**

  A search for an expression runs on two automata over bytes, one that reads forwards and one
  that reads backwards.  An expression is refused if either of them takes more than ten
  mebibytes.  This file counts what an automaton takes without making it: every state has
  the same size, and the lists of a state, of transitions or of states to try in turn, are
  counted by their entries.

  Parts are put together by states that lead on without reading.  A part ends in one state,
  and if that is a state that tries others in turn, whatever follows becomes one more of
  those.  Each part therefore tells whether it ends in such a state.

  A set of characters is read byte by byte.  Sets share states for what ends alike, as far as
  a table of bounded size remembers the state: two states whose keys fall into one slot
  displace each other.  The keys hold numbers of states, so how much of a set is shared
  depends on how many states come before it.
-/
import EmScale.Regex.Basic
import EmScale.Unicode.ByteRanges
import Std.Data.HashMap

namespace EmScale.Regex

open Unicode (ByteRange ByteBox encodingBoxes)

/-! ### Counting -/

/-- What an automaton takes: its states, and the bytes of their lists. -/
structure Extent where
  states : Nat := 0
  lists : Nat := 0
deriving DecidableEq, Repr, Inhabited

namespace Extent

instance : Add Extent := ⟨fun a b => ⟨a.states + b.states, a.lists + b.lists⟩⟩

/-- The size in bytes; a state has 32. -/
def size (e : Extent) : Nat := 32 * e.states + e.lists

/-- The size in bytes that no automaton may exceed. -/
def limit : Nat := 10 * Nat.pow 2 20

/-- One state without lists. -/
def state : Extent := ⟨1, 0⟩

/-- A list of `n` transitions, with eight bytes each. -/
def transitions (n : Nat) : Extent := ⟨0, 8 * n⟩

/-- A list of `n` states to try in turn, with four bytes each. -/
def branches (n : Nat) : Extent := ⟨0, 4 * n⟩

end Extent

/-- A step in counting an automaton: it goes on from what was counted and gives nothing if the
    limit is exceeded. -/
abbrev Count := StateT Extent Option

namespace Count

def add (more : Extent) : Count Unit := fun sum =>
  if (sum + more).size ≤ Extent.limit then some ((), sum + more) else none

def newState (lists : Extent) : Count Nat := do
  let number := (← get).states
  add (Extent.state + lists)
  return number

/-- Counts what it takes to go on behind a part, which ends in a state that tries others in
    turn or not. -/
def link (turns : Bool) : Count Unit := add (.branches (if turns then 1 else 0))

end Count

/-! ### Tables of bounded size -/

/-- A table that remembers the states of keys, one for each slot. -/
abbrev Slots (κ : Type) := Std.HashMap Nat (κ × Nat)

/-- The slot of a key among `slots`, by an FNV-1a hash of 64 bits. -/
def slotOf (slots : Nat) (key : List Nat) : Nat :=
  let mix (hash : UInt64) (n : Nat) : UInt64 := (hash ^^^ n.toUInt64) * 1099511628211
  (key.foldl mix 14695981039346656037).toNat % slots

/-- The state of a key: the one that the table remembers for it, or else a new one. -/
def stateFor {κ : Type} [DecidableEq κ] (slot : Nat) (key : κ) (lists : Extent) :
    StateT (Slots κ) Count Nat := do
  match (← get)[slot]? with
  | some (known, number) =>
    if known = key then return number
  | none => pure ()
  let number ← Count.newState lists
  modify fun table => table.insert slot (key, number)
  return number

/-! ### Sets of characters -/

/-- A transition: the bytes it is taken on, and the state it leads to. -/
structure Transition where
  bytes : ByteRange
  next : Nat
deriving DecidableEq, Repr, Inhabited

/-- The boxes of all encodings of a set. -/
def CharSet.boxes (s : CharSet) : List ByteBox :=
  s.intervals.flatMap fun i => encodingBoxes i.first i.last

/-- Counts the states that read one out of some boxes, of at most so many ranges each, and
    then lead to `target`.  Boxes next to each other share what they start with; states with
    the same transitions are the same.  Gives the first state. -/
def countForwards (target : Nat) : Nat → List ByteBox → StateT (Slots (List Transition)) Count Nat
  | 0, _ => pure target
  | ranges + 1, boxes => do
    let groups := boxes.splitBy fun a b => a.head? == b.head?
    let transitions ← groups.mapM fun group => do
      let rest := group.map List.tail
      let next ← if rest.all List.isEmpty then pure target else countForwards target ranges rest
      return ⟨(group.headD []).headD default, next⟩
    let key := transitions.flatMap fun t => [t.bytes.first, t.bytes.last, t.next]
    stateFor (slotOf 10000 key) transitions (.transitions transitions.length)

/-- Counts the states that read a box backwards and then lead to the state `next`.  Boxes share
    what they start with.  Gives the first state. -/
def countBackwards (next : Nat) : ByteBox → StateT (Slots (Nat × ByteRange)) Count Nat
  | [] => pure next
  | bytes :: rest => do
    let slot := slotOf 1000 [next, bytes.first, bytes.last]
    let before ← stateFor slot (next, bytes) {}
    countBackwards before rest

/-- The two ways of reading. -/
inductive Direction where
  | forwards | backwards
deriving DecidableEq, Repr, Inhabited

/-- Counts what it takes to read one character of a set. -/
def CharSet.count (direction : Direction) (s : CharSet) : Count Unit :=
  if s.isAscii then do
    Count.add .state
    Count.add (.state + .transitions s.intervals.length)
  else
    match direction with
    | .forwards => do
      let target ← Count.newState {}
      let _ ← (countForwards target 4 s.boxes).run {}
    | .backwards => do
      Count.add .state
      let target ← Count.newState {}
      let _ ← (s.boxes.forM fun box => do
        let _ ← countBackwards target box
        Count.add (.branches 1)).run {}

/-! ### Literals to choose from -/

/-- What it takes to read one of some words as a tree of bytes.  Words that start alike share
    a path, unless a word that ends there stands between them: earlier words are tried first.
    So the words at a node come in runs between the words that end there, each run with a
    state of its own. -/
def treeExtent : Nat → List (List UInt8) → Extent
  | 0, _ => {}
  | depth + 1, words =>
    let (ended, rest) := (words.takeWhile List.isEmpty, words.dropWhile List.isEmpty)
    let runs := (if ended.isEmpty then [] else [[]]) ++ rest.splitOnP List.isEmpty
    let ways := runs.map fun run =>
      let heads := (run.filterMap List.head?).eraseDups
      let own : Extent := if heads.isEmpty then {} else .state
      let lists := Extent.transitions (if heads.length < 2 then 0 else heads.length)
      let inner := heads.map fun byte =>
        let tails := (run.filter fun word => word.head? == some byte).map List.tail
        if tails.all List.isEmpty then {} else treeExtent depth tails
      inner.foldl (· + ·) (own + lists)
    let used := (runs.filter fun run => !run.isEmpty).length
    ways.foldl (· + ·) (Extent.state + .branches (used + (runs.length - 1)))

/-- What it takes to read one of some literals. -/
def literalsExtent (direction : Direction) (literals : List Text) : Extent :=
  let words := literals.map fun t =>
    let bytes := t.flatMap String.utf8EncodeChar
    if direction = .forwards then bytes else bytes.reverse
  Extent.state + treeExtent ((words.map List.length).foldl max 0 + 1) words

/-! ### Expressions -/

namespace Count

/-- Counts `n` copies of a part behind one that ends as told. -/
def moreCopies (copy : Count Bool) : Nat → Bool → Count Bool
  | 0, turns => pure turns
  | n + 1, turns => do
    let next ← copy
    link turns
    moreCopies copy n next

/-- Counts `n` copies of a part, one behind the other. -/
def copies (copy : Count Bool) : Nat → Count Bool
  | 0 => do
    add .state
    return false
  | n + 1 => do moreCopies copy n (← copy)

/-- Counts `n` copies of a part that may all be left out, from the last one on. -/
def optionalCopies (copy : Count Bool) : Nat → Bool → Count Bool
  | 0, turns => do
    link turns
    return false
  | n + 1, turns => do
    add .state
    let next ← copy
    link turns
    add (.branches 2)
    optionalCopies copy n next

/-- Counts a part as often as it occurs; `matchesEmpty` tells whether it matches the empty
    text. -/
def unbounded (copy : Count Bool) (matchesEmpty : Bool) : Nat → Count Bool
  | 0 =>
    if matchesEmpty then do
      let turns ← copy
      add (.state + .branches 2)
      link turns
      add (.state + .branches 2)
      add .state
      return false
    else do
      add .state
      let turns ← copy
      add (.branches 1)
      link turns
      return true
  | n + 1 => do
    let before ← if n = 0 then pure false else copies copy n
    let turns ← copy
    add (.state + .branches 1)
    link before
    link turns
    return true

end Count

namespace Expr

def toLiteral? : Expr → Option Text
  | literal t => some t
  | _ => none

/-- Counts the choice at a place among several ones, which ends as told.  The states around
    the choices come behind the second of them. -/
def countChoice (place : Nat) (turns : Bool) : Count Bool := do
  if place = 1 then Count.add (.state + .state)
  Count.add (.branches 1)
  Count.link turns
  return false

/-- Counts what it takes to read an expression, which may be the last one of several choices;
    `place` tells how many of them are in front of it.  Tells whether it ends in a state that
    tries others in turn. -/
def count (direction : Direction) : Option Nat → Expr → Count Bool
  | place, seq a b =>
    finish place <|
      match direction with
      | .forwards => do
        Count.link (← count direction none a)
        count direction none b
      | .backwards => do
        Count.link (← count direction none b)
        count direction none a
  | place, alt a b =>
    match place, (alt a b).choices.mapM toLiteral? with
    | none, some literals => do
      Count.add (literalsExtent direction literals)
      return false
    | _, _ => do
      let before := place.getD 0
      let _ ← countChoice before (← count direction none a)
      count direction (some (before + 1)) b
  | place, empty | place, assertion _ =>
    finish place do
      Count.add .state
      return false
  | place, literal t =>
    finish place do
      Count.add ⟨Text.byteSize t, 0⟩
      return false
  | place, set s =>
    finish place do
      s.count direction
      return false
  | place, group _ e =>
    finish place <|
      match direction with
      | .forwards => do
        Count.add .state
        let turns ← count direction none e
        Count.add .state
        Count.link turns
        return false
      | .backwards => count direction none e
  | place, repeated e min max _ =>
    finish place <|
      let copy := count direction none e
      match max with
      | none => Count.unbounded copy (e.minLength.all (· == 0)) min
      | some max =>
        if min = 0 ∧ max = 1 then do
          Count.add (.state + .branches 2)
          let turns ← copy
          Count.add .state
          Count.link turns
          return false
        else if min = max then Count.copies copy min
        else do
          let turns ← Count.copies copy min
          Count.add .state
          Count.optionalCopies copy (max - min) turns
where
  /-- Ends a choice, if it is one. -/
  finish (place : Option Nat) (part : Count Bool) : Count Bool := do
    let turns ← part
    match place with
    | none => return turns
    | some place => countChoice place turns

/-- Whether every match starts at the start of the text. -/
def startsText : Expr → Bool
  | assertion .textStart => true
  | seq a b => a.startsText || (a.isEmptyAtMost && b.startsText)
  | alt a b => a.startsText && b.startsText
  | repeated e min _ _ => 0 < min && e.startsText
  | group _ e => e.startsText
  | _ => false

/-- Whether every match ends at the end of the text. -/
def endsText : Expr → Bool
  | assertion .textEnd => true
  | seq a b => b.endsText || (b.isEmptyAtMost && a.endsText)
  | alt a b => a.endsText && b.endsText
  | repeated e min _ _ => 0 < min && e.endsText
  | group _ e => e.endsText
  | _ => false

/-- Counts the automaton of an expression.  If a match may begin anywhere, a loop in front of it
    passes over bytes.  Only the automaton that reads forwards remembers where groups are. -/
def countWhole (direction : Direction) (e : Expr) : Count Unit := do
  let fixed := match direction with
    | .forwards => e.startsText
    | .backwards => e.endsText
  if fixed then Count.add .state
  else Count.add ⟨3, 16⟩
  let whole := if direction = .forwards then group 0 e else e
  let turns ← count direction none whole
  Count.add .state
  Count.link turns

/-- Whether both automata of an expression are within the limit. -/
def fits (e : Expr) : Bool :=
  [Direction.forwards, .backwards].all fun direction =>
    ((e.countWhole direction).run {}).isSome

end Expr

end EmScale.Regex
