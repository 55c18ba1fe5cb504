/-
  EmScale/Regex/Reader.lean
  =========================
  **The notation of regular expressions.**

  A pattern is read from left to right with the open groups on a stack.  Not every text is
  a pattern: brackets and groups must be balanced, a repetition needs something to repeat,
  its counts must be in order, and a backslash must be followed by a character that it gives
  or takes a meaning.  Look-around groups and back-references are refused.  So is a pattern
  that is nested too deep or takes too much room, and one that asks for single bytes outside
  ASCII.  Sets of the characters that have a property, as in `\p{Greek}`, are not read.
-/
import EmScale.Regex.Automaton
import EmScale.Number.Digits
import EmScale.Unicode.Alphanumeric
import EmScale.Unicode.WhiteSpace

namespace EmScale.Regex

open Unicode (isWhiteSpace)

/-! ### Flags -/

/-- How the rest of a pattern is read. -/
structure Flags where
  ignoreCase : Bool := false
  /-- `^` and `$` stand for the edges of lines. -/
  multiLine : Bool := false
  /-- The dot includes the ends of lines. -/
  dotAll : Bool := false
  /-- A carriage return ends lines as well. -/
  crlf : Bool := false
  /-- Repetitions are lazy where they are not marked as such, and the other way round. -/
  lazily : Bool := false
  /-- Blanks and comments in the pattern are passed over. -/
  spaced : Bool := false
  /-- Sets have ASCII characters only. -/
  ascii : Bool := false
deriving DecidableEq, Repr, Inhabited

namespace Flags

def assign? (flags : Flags) (value : Bool) : Char → Option Flags
  | 'i' => some { flags with ignoreCase := value }
  | 'm' => some { flags with multiLine := value }
  | 's' => some { flags with dotAll := value }
  | 'R' => some { flags with crlf := value }
  | 'U' => some { flags with lazily := value }
  | 'x' => some { flags with spaced := value }
  | 'u' => some { flags with ascii := !value }
  | _ => none

/-- The characters that words are made of. -/
def alphabet (flags : Flags) : Alphabet := if flags.ascii then .ascii else .unicode

/-- A set as it is meant under the flags. -/
def fold (flags : Flags) (s : CharSet) : CharSet :=
  if !flags.ignoreCase then s else if flags.ascii then s.anyAsciiCase else s.anyCase

/-- One character as it is meant under the flags. -/
def character (flags : Flags) (c : Char) : Expr :=
  if !flags.ignoreCase then .literal [c]
  else .ofSet (if flags.ascii then (CharSet.single c).anyAsciiCase else .anyCaseOf c)

/-- The set outside `s`; among single bytes it is not one of ASCII characters. -/
def complement? (flags : Flags) (s : CharSet) : Option CharSet :=
  if flags.ascii then none else some s.complement

/-- The set `s`, or what is outside it. -/
def negateIf? (flags : Flags) (negated : Bool) (s : CharSet) : Option CharSet :=
  if negated then flags.complement? s else some s

/-- What the dot stands for: all characters but those that end lines. -/
def dot? (flags : Flags) : Option CharSet :=
  if flags.dotAll then flags.complement? {}
  else if flags.crlf then flags.complement? ((CharSet.single '\n').union (.single '\r'))
  else flags.complement? (.single '\n')

/-- Passes over blanks and comments if the flags say so. -/
def skip (flags : Flags) (t : Text) : Text :=
  if flags.spaced then go false t else t
where
  go (inComment : Bool) : Text → Text
    | [] => []
    | c :: rest =>
      if inComment then go (c != '\n') rest
      else if c = '#' then go true rest
      else if isWhiteSpace c then go false rest
      else c :: rest

end Flags

/-! ### Escapes -/

/-- What a backslash and the characters behind it stand for. -/
inductive Escape where
  | literal (c : Char)
  | set (s : CharSet)
  | assertion (a : Assertion)
deriving Repr, Inhabited

def charOfNat? (n : Nat) : Option Char :=
  if n.isValidChar then some (Char.ofNat n) else none

/-- A character by its hexadecimal number: so many digits, or any number in braces. -/
def readHex (digits : Nat) : Text → Option (Char × Text)
  | '{' :: rest =>
    let run := rest.takeWhile (· != '}')
    match rest.dropWhile (· != '}') with
    | [] => none
    | _ :: behind => do
      if run.isEmpty then none
      return (← charOfNat? (← naturalOfHex? run), behind)
  | t => do
    if t.length < digits then none
    return (← charOfNat? (← naturalOfHex? (t.take digits)), t.drop digits)

/-- A word boundary of a special kind, named in braces.  Other braces are left alone. -/
def readBoundary (a : Alphabet) : Text → Option (Escape × Text)
  | '{' :: rest =>
    let isNamePart (c : Char) : Bool := c.isAlpha || c == '-'
    let name := rest.takeWhile isNamePart
    if name.isEmpty then some (.assertion (.wordBoundary a), '{' :: rest)
    else
      match rest.dropWhile isNamePart with
      | '}' :: behind =>
        if name = "start".toList then some (.assertion (.wordStart a), behind)
        else if name = "end".toList then some (.assertion (.wordEnd a), behind)
        else if name = "start-half".toList then some (.assertion (.wordStartHalf a), behind)
        else if name = "end-half".toList then some (.assertion (.wordEndHalf a), behind)
        else none
      | _ => none
  | t => some (.assertion (.wordBoundary a), t)

/-- Reads an escape from behind its backslash. -/
def readEscape (flags : Flags) : Text → Option (Escape × Text)
  | [] => none
  | c :: rest =>
    let assertion (a : Alphabet → Assertion) : Option (Escape × Text) :=
      some (.assertion (a flags.alphabet), rest)
    let set (ascii unicode : CharSet) : CharSet := if flags.ascii then ascii else unicode
    let outside (s : CharSet) : Option (Escape × Text) :=
      (flags.complement? s).map fun s => (.set s, rest)
    match c with
    | 'd' => some (.set (set .asciiDigits .digits), rest)
    | 'D' => outside .digits
    | 's' => some (.set (set .asciiSpaces .spaces), rest)
    | 'S' => outside .spaces
    | 'w' => some (.set (set .asciiWords .words), rest)
    | 'W' => outside .words
    | 'a' => some (.literal '\x07', rest)
    | 'f' => some (.literal '\x0c', rest)
    | 't' => some (.literal '\t', rest)
    | 'n' => some (.literal '\n', rest)
    | 'r' => some (.literal '\r', rest)
    | 'v' => some (.literal '\x0b', rest)
    | 'x' => do
      let (c, behind) ← readHex 2 rest
      if flags.ascii && rest.head? != some '{' && 0x80 ≤ c.toNat then none
      return (.literal c, behind)
    | 'u' => (readHex 4 rest).map fun (c, behind) => (.literal c, behind)
    | 'U' => (readHex 8 rest).map fun (c, behind) => (.literal c, behind)
    | 'A' => some (.assertion .textStart, rest)
    | 'z' => some (.assertion .textEnd, rest)
    | 'b' => readBoundary flags.alphabet rest
    | 'B' => assertion .noWordBoundary
    | '<' => assertion .wordStart
    | '>' => assertion .wordEnd
    | _ => if c.toNat < 128 && !c.isAlphanum then some (.literal c, rest) else none

/-! ### Bracketed sets -/

/-- A named set of ASCII characters. -/
def namedSet? (name : Text) : Option CharSet :=
  let lower := CharSet.range 'a' 'z'
  let upper := CharSet.range 'A' 'Z'
  let alpha := upper.union lower
  let alnum := CharSet.asciiDigits.union alpha
  [("alnum", alnum), ("alpha", alpha), ("ascii", .range '\x00' '\x7f'),
    ("blank", (CharSet.single '\t').union (.single ' ')),
    ("cntrl", (CharSet.range '\x00' '\x1f').union (.single '\x7f')),
    ("digit", .asciiDigits), ("graph", .range '!' '~'), ("lower", lower),
    ("print", .range ' ' '~'), ("punct", (CharSet.range '!' '~').diff alnum),
    ("space", .asciiSpaces), ("upper", upper), ("word", .asciiWords),
    ("xdigit", CharSet.asciiDigits.union ((CharSet.range 'A' 'F').union (.range 'a' 'f')))].findSome?
    fun (known, s) => if known.toList = name then some s else none

/-- A named set, with the text behind it. -/
structure NamedSet where
  negated : Bool
  set : CharSet
  rest : Text

/-- Reads a named set from behind its `[:`. -/
def readNamedSet (t : Text) : Option NamedSet :=
  let (negated, t) := match t with
    | '^' :: rest => (true, rest)
    | t => (false, t)
  let name := t.takeWhile (· != ':')
  match t.dropWhile (· != ':') with
  | ':' :: ']' :: rest => (namedSet? name).map fun set => ⟨negated, set, rest⟩
  | _ => none

/-- One end of a range, or an item on its own: a character, or a set. -/
def readItem (flags : Flags) : Text → Option ((Char ⊕ CharSet) × Text)
  | [] => none
  | '\\' :: rest =>
    match readEscape flags rest with
    | some (.literal c, behind) => character c behind
    | some (.set s, behind) => some (.inr s, behind)
    | _ => none
  | c :: rest => character c rest
where
  /-- A character, if it may be in a set. -/
  character (c : Char) (rest : Text) : Option ((Char ⊕ CharSet) × Text) :=
    if flags.ascii && 0x80 ≤ c.toNat then none else some (.inl c, rest)

/-- Reads an item of a bracketed set, or a range of characters. -/
def readRange (flags : Flags) (t : Text) : Option (CharSet × Text) := do
  let (first, rest) ← readItem flags t
  let alone : CharSet := match first with
    | .inl c => .single c
    | .inr s => s
  match flags.skip rest with
  | [] => none
  | '-' :: behind =>
    match flags.skip behind with
    | [] => none
    | ']' :: _ | '-' :: _ => some (alone, flags.skip rest)
    | stop =>
      let (last, rest) ← readItem flags stop
      match first, last with
      | .inl a, .inl b => if a ≤ b then some (.range a b, rest) else none
      | _, _ => none
  | rest => some (alone, rest)

/-- Items of a bracketed set that were read: what they stand for together, how many they are,
    and how deep the deepest of them is nested. -/
structure SetItems where
  set : CharSet := {}
  count : Nat := 0
  depth : Nat := 0
deriving Repr, Inhabited

namespace SetItems

def push (items : SetItems) (s : CharSet) (depth : Nat) : SetItems :=
  ⟨items.set.union s, items.count + 1, max items.depth depth⟩

/-- How deep the items are nested; several items together are one level of their own. -/
def wholeDepth (items : SetItems) : Nat :=
  if items.count < 2 then items.depth else items.depth + 1

end SetItems

/-- What combines two sets in brackets. -/
inductive SetOperator where
  | inter | diff | symmDiff
deriving DecidableEq, Repr

/-- What stands in front of items: a set, how deep it is nested, and the operator behind it. -/
structure Pending where
  set : CharSet
  depth : Nat
  operator : SetOperator
deriving Repr

/-- Items together with what stands in front of them: the set and how deep it is nested. -/
def combine (flags : Flags) (pending : Option Pending) (items : SetItems) : CharSet × Nat :=
  match pending with
  | none => (items.set, items.wholeDepth)
  | some ⟨left, depth, operator⟩ =>
    let left := flags.fold left
    let right := flags.fold items.set
    let set := match operator with
      | .inter => left.inter right
      | .diff => left.diff right
      | .symmDiff => left.symmDiff right
    (set, max depth items.wholeDepth + 1)

/-- Passes over the dashes that a bracketed set starts with, and tells how many there are. -/
def readDashes (flags : Flags) : Nat → Text → Nat × Text
  | fuel + 1, '-' :: rest =>
    let (count, rest) := readDashes flags fuel (flags.skip rest)
    (count + 1, rest)
  | _, t => (0, t)

mutual

/-- Reads a bracketed set from behind its bracket.  Gives the set and how deep it is nested.
    Every call uses up one unit of fuel. -/
def readSet (fuel : Nat) (flags : Flags) (t : Text) : Option (CharSet × Nat × Text) :=
  match fuel with
  | 0 => none
  | fuel + 1 =>
    let (negated, t) := match flags.skip t with
      | '^' :: rest => (true, flags.skip rest)
      | t => (false, t)
    match readDashes flags t.length t with
    | (0, ']' :: rest) =>
      readSetItems fuel flags negated none ⟨.single ']', 1, 0⟩ rest
    | (0, rest) => readSetItems fuel flags negated none {} rest
    | (dashes, rest) => readSetItems fuel flags negated none ⟨.single '-', dashes, 0⟩ rest

/-- Reads the items of a bracketed set up to its closing bracket.  `pending` is what stands in
    front of the last operator, `items` what was read behind it. -/
def readSetItems (fuel : Nat) (flags : Flags) (negated : Bool) (pending : Option Pending)
    (items : SetItems) (t : Text) : Option (CharSet × Nat × Text) :=
  match fuel with
  | 0 => none
  | fuel + 1 =>
    let operator (o : SetOperator) (rest : Text) : Option (CharSet × Nat × Text) :=
      let (set, depth) := combine flags pending items
      readSetItems fuel flags negated (some ⟨set, depth, o⟩) {} rest
    match flags.skip t with
    | [] => none
    | ']' :: rest =>
      let (set, depth) := combine flags pending items
      (flags.negateIf? negated (flags.fold set)).map fun set => (set, depth + 1, rest)
    | '&' :: '&' :: rest => operator .inter rest
    | '-' :: '-' :: rest => operator .diff rest
    | '~' :: '~' :: rest => operator .symmDiff rest
    | '[' :: rest =>
      let named := match rest with
        | ':' :: behind => readNamedSet behind
        | _ => none
      match named with
      | some ⟨inverse, s, behind⟩ =>
        match flags.negateIf? inverse (flags.fold s) with
        | some s => readSetItems fuel flags negated pending (items.push s 0) behind
        | none => none
      | none =>
        match readSet fuel flags rest with
        | some (s, depth, behind) =>
          readSetItems fuel flags negated pending (items.push s depth) behind
        | none => none
    | here =>
      match readRange flags here with
      | some (s, rest) => readSetItems fuel flags negated pending (items.push s 0) rest
      | none => none

end

/-! ### Repetition -/

def readCount (t : Text) : Option (Nat × Text) :=
  let t := Text.trimStart t
  let run := t.takeWhile Char.isDigit
  let n := naturalOfDigits run
  if run.isEmpty || n ≥ Nat.pow 2 32 then none
  else some (n, Text.trimStart (t.dropWhile Char.isDigit))

/-- Reads the counts of a repetition from behind the opening brace: the least number of
    times, and the greatest. -/
def readCounts (flags : Flags) (t : Text) : Option (Nat × Option Nat × Text) := do
  let (min, rest) ← readCount (flags.skip t)
  match rest with
  | '}' :: behind => some (min, some min, behind)
  | ',' :: rest =>
    match flags.skip rest with
    | '}' :: behind => some (min, none, behind)
    | rest =>
      let (max, rest) ← readCount rest
      match rest with
      | '}' :: behind => if min ≤ max then some (min, some max, behind) else none
      | _ => none
  | _ => none

/-- Reads the mark of a repetition that takes as little as it can. -/
def readLazy : Text → Bool × Text
  | '?' :: rest => (true, rest)
  | t => (false, t)

/-! ### Groups -/

/-- What an opening parenthesis stands for. -/
inductive Opening where
  /-- A group that is numbered, with or without a name. -/
  | numbered (name : Option Text)
  /-- A group that is not; its flags hold up to its end. -/
  | plain (flags : Flags)
  /-- No group: flags for the rest of the group around. -/
  | settings (flags : Flags)

/-- Reads the name of a group up to its closing angle. -/
def readGroupName (t : Text) : Option (Text × Text) :=
  let name := t.takeWhile (· != '>')
  let isStart (c : Char) : Bool := c == '_' || Unicode.isAlphabetic c
  let isPart (c : Char) : Bool :=
    c == '_' || c == '.' || c == '[' || c == ']' || Unicode.isAlphanumeric c
  match name, t.dropWhile (· != '>') with
  | c :: more, _ :: rest => if isStart c && more.all isPart then some (name, rest) else none
  | _, _ => none

/-- Reads flags up to the character that ends them.  `value` is what the flags are set to,
    `seen` the letters so far. -/
def readFlags (flags : Flags) (value : Bool) (seen : Text) : Text → Option (Opening × Text)
  | [] => none
  | ')' :: rest =>
    if seen.isEmpty || seen.head? = some '-' then none else some (.settings flags, rest)
  | ':' :: rest => if seen.head? = some '-' then none else some (.plain flags, rest)
  | '-' :: rest => if value then readFlags flags false ('-' :: seen) rest else none
  | c :: rest =>
    if seen.contains c then none
    else
      match flags.assign? value c with
      | some flags => readFlags flags value (c :: seen) rest
      | none => none

/-- Reads what is behind an opening parenthesis. -/
def readOpening (flags : Flags) (t : Text) : Option (Opening × Text) :=
  match flags.skip t with
  | '?' :: rest =>
    match rest with
    | '=' :: _ | '!' :: _ | '<' :: '=' :: _ | '<' :: '!' :: _ => none
    | '<' :: rest | 'P' :: '<' :: rest =>
      (readGroupName rest).map fun (name, rest) => (.numbered (some name), rest)
    | rest => readFlags flags true [] rest
  | rest => some (.numbered none, rest)

/-! ### Patterns -/

/-- A part of a pattern: what it stands for, and how deep it is nested. -/
structure Part where
  expr : Expr := .empty
  depth : Nat := 0
  /-- Whether it can be repeated; settings cannot. -/
  repeatable : Bool := true
deriving Inhabited

/-- Parts put together; several ones are one level of their own. -/
def Part.together (whole : List Expr → Expr) : List Part → Part
  | [part] => part
  | parts => ⟨whole (parts.map expr), (parts.map depth).foldl max 0 + min parts.length 1, true⟩

/-- What was read of a group. -/
structure OpenGroup where
  flags : Flags := {}
  /-- The number of the group, if it has one. -/
  number : Option Nat := none
  /-- The alternatives in front of the current one, last first. -/
  choices : List Part := []
  /-- The parts of the current alternative, last first. -/
  parts : List Part := []
deriving Inhabited

namespace OpenGroup

def current (p : OpenGroup) : Part := Part.together Expr.concat p.parts.reverse

def whole (p : OpenGroup) : Part :=
  Part.together Expr.alternation (p.current :: p.choices).reverse

/-- The group as a part of what is around it. -/
def close (p : OpenGroup) : Part :=
  let expr := match p.number with
    | some number => .group number p.whole.expr
    | none => p.whole.expr
  ⟨expr, p.whole.depth + 1, true⟩

def push (p : OpenGroup) (part : Part) : OpenGroup := { p with parts := part :: p.parts }

def configure (p : OpenGroup) (flags : Flags) : OpenGroup :=
  { p.push { repeatable := false } with flags }

def split (p : OpenGroup) : OpenGroup :=
  { p with choices := p.current :: p.choices, parts := [] }

/-- Repeats the last part, if it can be. -/
def repeatLast? (p : OpenGroup) (min : Nat) (max : Option Nat) (marked : Bool) :
    Option OpenGroup :=
  match p.parts with
  | part :: parts =>
    if part.repeatable then
      let expr := part.expr.repeating min max (marked != p.flags.lazily)
      some { p with parts := ⟨expr, part.depth + 1, true⟩ :: parts }
    else none
  | [] => none

end OpenGroup

/-- How far a pattern was read: the current group, the groups around it, innermost first, how
    many groups have numbers, and the names of groups. -/
structure Progress where
  group : OpenGroup
  outer : List OpenGroup := []
  numbered : Nat := 0
  names : List Text := []
deriving Inhabited

namespace Progress

/-- Adds a part that nothing is nested in, in front of the text `rest`. -/
def leaf (p : Progress) (e : Expr) (rest : Text) : Option (Progress × Text) :=
  some ({ p with group := p.group.push { expr := e } }, rest)

/-- Repeats the last part; the text `rest` may start with the mark of laziness. -/
def again (p : Progress) (min : Nat) (max : Option Nat) (rest : Text) :
    Option (Progress × Text) :=
  let (marked, rest) := readLazy rest
  (p.group.repeatLast? min max marked).map fun group => ({ p with group }, rest)

/-- Reads what is behind an opening parenthesis up to where its content starts. -/
def opening (p : Progress) (rest : Text) : Option (Progress × Text) :=
  match readOpening p.group.flags rest with
  | none => none
  | some (.settings flags, rest) => some ({ p with group := p.group.configure flags }, rest)
  | some (.plain flags, rest) =>
    some ({ p with group := { flags }, outer := p.group :: p.outer }, rest)
  | some (.numbered name, rest) =>
    if name.any p.names.contains then none
    else
      some ({
        group := { flags := p.group.flags, number := some (p.numbered + 1) }
        outer := p.group :: p.outer
        numbered := p.numbered + 1
        names := name.toList ++ p.names }, rest)

/-- Reads the next piece of a pattern, which starts with the character `c`. -/
def next (p : Progress) (c : Char) (rest : Text) : Option (Progress × Text) :=
  let flags := p.group.flags
  match c with
  | '(' => p.opening rest
  | ')' =>
    match p.outer with
    | [] => none
    | around :: outer => some ({ p with group := around.push p.group.close, outer }, rest)
  | '|' => some ({ p with group := p.group.split }, rest)
  | '[' => do
    let (s, depth, rest) ← readSet (2 * rest.length + 2) flags rest
    return ({ p with group := p.group.push { expr := .ofSet s, depth } }, rest)
  | '*' => p.again 0 none rest
  | '+' => p.again 1 none rest
  | '?' => p.again 0 (some 1) rest
  | '{' => do
    let (min, max, rest) ← readCounts flags rest
    p.again min max rest
  | '\\' => do
    match ← readEscape flags rest with
    | (.literal c, rest) => p.leaf (flags.character c) rest
    | (.set s, rest) => p.leaf (.ofSet s) rest
    | (.assertion a, rest) => p.leaf (.assertion a) rest
  | '.' => do p.leaf (.ofSet (← flags.dot?)) rest
  | '^' => p.leaf (.assertion (if flags.multiLine then .lineStart flags.crlf else .textStart)) rest
  | '$' => p.leaf (.assertion (if flags.multiLine then .lineEnd flags.crlf else .textEnd)) rest
  | c => p.leaf (flags.character c) rest

/-- Reads a pattern from a place on.  Every piece uses up one unit of fuel, and takes at least
    one character. -/
def finish : Nat → Progress → Text → Option Part
  | 0, _, _ => none
  | fuel + 1, p, t =>
    match p.group.flags.skip t with
    | [] => if p.outer.isEmpty then some p.group.whole else none
    | c :: rest =>
      match p.next c rest with
      | some (p, rest) => finish fuel p rest
      | none => none

end Progress

def maxDepth : Nat := 250

/-- Reads a pattern under the given flags. -/
def parse? (flags : Flags) (source : Text) : Option Expr :=
  match Progress.finish (source.length + 1) { group := { flags } } source with
  | some part =>
    if part.depth ≤ maxDepth && part.expr.fits then some part.expr else none
  | none => none

end EmScale.Regex
