/-
  EmScale/Json/Reader.lean
  ========================
  **Reading JSON.**

  The grammar is the strict one: no comments, no trailing commas, no leading zeros, no byte
  order mark, and no half of a surrogate pair on its own.  A number too large for a floating
  point number is refused, and so is nesting beyond a given depth.  Of two members with one
  key the later one counts.  Readers take the text from where a value may start and give the
  value and the text behind it.

  This is one reader, `Json.read?`, for the converter to run with; what the text of options
  stands for is defined for any reader (`readOptions?`).
-/
import EmScale.Json.Basic
import EmScale.Number.Numeral

namespace EmScale.Json

/-! ### Blanks -/

def isBlank (c : Char) : Bool :=
  c == ' ' || c == '\n' || c == '\r' || c == '\t'

def skipBlanks (t : Text) : Text :=
  t.dropWhile isBlank

/-! ### Numbers -/

def readExponentPart : Text → Option (Option Int × Text)
  | c :: t =>
    if c = 'e' ∨ c = 'E' then
      let (sign, digits) := splitSign t
      let run := digits.takeWhile Char.isDigit
      let n : Int := naturalOfDigits run
      if run.isEmpty then none
      else some (some (if sign = ['-'] then -n else n), digits.dropWhile Char.isDigit)
    else some (none, c :: t)
  | [] => some (none, [])

def readFractionPart : Text → Option (Option Text × Text)
  | '.' :: t =>
    let run := t.takeWhile Char.isDigit
    if run.isEmpty then none else some (some run, t.dropWhile Char.isDigit)
  | t => some (none, t)

/-- The value of a number without fraction and exponent. -/
def integerValue (negative : Bool) (whole : Text) : JsonNumber :=
  let n := naturalOfDigits whole
  if negative then
    if n = 0 || n > Nat.pow 2 63 then .real (Decimal.toFloat ⟨true, n, 0⟩) else .integer (-n)
  else if n < Nat.pow 2 64 then .integer n
  else .real (Decimal.toFloat ⟨false, n, 0⟩)

/-- A number, from its first digit on. -/
def readNumber (negative : Bool) (t : Text) : Option (JsonNumber × Text) := do
  let whole := t.takeWhile Char.isDigit
  if whole.isEmpty || (whole.head? = some '0' && whole.length > 1) then none
  let (fraction, rest) ← readFractionPart (t.dropWhile Char.isDigit)
  let (exponent, rest) ← readExponentPart rest
  let value :=
    match fraction, exponent with
    | none, none => integerValue negative whole
    | _, _ =>
      let digits := Decimal.ofDigits negative whole (fraction.getD []) (exponent.getD 0)
      .real digits.toFloat
  if value.toFloat.isFinite then some (value, rest) else none

/-! ### Strings -/

/-- The character that a letter stands for behind a backslash. -/
def escaped? : Char → Option Char
  | '"' => some '"'
  | '\\' => some '\\'
  | '/' => some '/'
  | 'b' => some '\x08'
  | 'f' => some '\x0c'
  | 'n' => some '\n'
  | 'r' => some '\r'
  | 't' => some '\t'
  | _ => none

/-- The code units of a string from behind its opening quote: characters, and numbers for
    what is written with four hexadecimal digits.  `done` holds those read so far, last
    first. -/
def readUnits (done : List (Char ⊕ Nat)) : Text → Option (List (Char ⊕ Nat) × Text)
  | '"' :: rest => some (done.reverse, rest)
  | '\\' :: 'u' :: a :: b :: c :: d :: rest =>
    match naturalOfHex? [a, b, c, d] with
    | some n => readUnits (.inr n :: done) rest
    | none => none
  | '\\' :: c :: rest =>
    match escaped? c with
    | some x => readUnits (.inl x :: done) rest
    | none => none
  | c :: rest => if c.toNat < 0x20 then none else readUnits (.inl c :: done) rest
  | [] => none

/-- Joins surrogate pairs.  `done` holds the characters so far, last first. -/
def joinUnits (done : Text) : List (Char ⊕ Nat) → Option Text
  | [] => some done.reverse
  | .inl c :: rest => joinUnits (c :: done) rest
  | .inr high :: .inr low :: rest =>
    if 0xD800 ≤ high ∧ high < 0xDC00 then
      if 0xDC00 ≤ low ∧ low < 0xE000 then
        let n := 0x10000 + (high - 0xD800) * 0x400 + (low - 0xDC00)
        joinUnits (Char.ofNat n :: done) rest
      else none
    else if 0xDC00 ≤ high ∧ high < 0xE000 then none
    else joinUnits (Char.ofNat high :: done) (.inr low :: rest)
  | .inr n :: rest =>
    if 0xD800 ≤ n ∧ n < 0xE000 then none else joinUnits (Char.ofNat n :: done) rest

/-- A string, from behind its opening quote. -/
def readString (t : Text) : Option (Text × Text) := do
  let (units, rest) ← readUnits [] t
  return (← joinUnits [] units, rest)

/-! ### Values -/

/-- Puts a member among members that are ordered by key, in place of one with the same
    key. -/
def insertMember (key : Text) (value : Json) : List (Text × Json) → List (Text × Json)
  | [] => [(key, value)]
  | (k, v) :: rest =>
    if key < k then (key, value) :: (k, v) :: rest
    else if key = k then (key, value) :: rest
    else (k, v) :: insertMember key value rest

mutual

/-- A value.  Every call uses up one unit of fuel, of which the length of the text allows
    two for each character. -/
def readValue (fuel depth : Nat) (t : Text) : Option (Json × Text) :=
  match fuel with
  | 0 => none
  | fuel + 1 =>
    match skipBlanks t with
    | 'n' :: 'u' :: 'l' :: 'l' :: rest => some (.null, rest)
    | 't' :: 'r' :: 'u' :: 'e' :: rest => some (.bool true, rest)
    | 'f' :: 'a' :: 'l' :: 's' :: 'e' :: rest => some (.bool false, rest)
    | '"' :: rest => (readString rest).map fun (text, rest) => (.string text, rest)
    | '[' :: rest =>
      if depth = 0 then none
      else
        match skipBlanks rest with
        | ']' :: rest => some (.array [], rest)
        | rest => readItems fuel (depth - 1) [] rest
    | '{' :: rest =>
      if depth = 0 then none
      else
        match skipBlanks rest with
        | '}' :: rest => some (.object [], rest)
        | rest => readMembers fuel (depth - 1) [] rest
    | '-' :: rest => (readNumber true rest).map fun (n, rest) => (.number n, rest)
    | rest => (readNumber false rest).map fun (n, rest) => (.number n, rest)

/-- The items of an array, from the next one on. -/
def readItems (fuel depth : Nat) (done : List Json) (t : Text) : Option (Json × Text) :=
  match fuel with
  | 0 => none
  | fuel + 1 =>
    match readValue fuel depth t with
    | none => none
    | some (item, rest) =>
      match skipBlanks rest with
      | ',' :: rest => readItems fuel depth (item :: done) rest
      | ']' :: rest => some (.array (item :: done).reverse, rest)
      | _ => none

/-- The members of an object, from the next one on. -/
def readMembers (fuel depth : Nat) (done : List (Text × Json)) (t : Text) :
    Option (Json × Text) :=
  match fuel with
  | 0 => none
  | fuel + 1 =>
    match skipBlanks t with
    | '"' :: rest =>
      match readString rest with
      | none => none
      | some (key, rest) =>
        match skipBlanks rest with
        | ':' :: rest =>
          match readValue fuel depth rest with
          | none => none
          | some (value, rest) =>
            let done := insertMember key value done
            match skipBlanks rest with
            | ',' :: rest => readMembers fuel depth done rest
            | '}' :: rest => some (.object done, rest)
            | _ => none
        | _ => none
    | _ => none

end

/-- Reads a value that makes up a whole text, with at most `depth` arrays and objects around
    any part of it. -/
def parse? (depth : Nat) (t : Text) : Option Json := do
  let (value, rest) ← readValue (2 * t.length + 2) depth t
  if (skipBlanks rest).isEmpty then some value else none

/-- How deep arrays and objects may be nested in the text of options. -/
def maxNesting : Nat := 127

/-- Reads the text of options. -/
def read? (t : Text) : Option Json :=
  parse? maxNesting t

end EmScale.Json
