/-
  EmScale/Json/Printer.lean
  =========================
  **The compact text of a JSON value.**

  No blanks, members in order, and nothing escaped that need not be.  A floating point
  number has its shortest digits and always a point or an exponent, so that it reads as one
  again: positional from 0.00001 up to sixteen digits before the point, scientific outside.
  The exponent has a sign.

  An event holds the options it is about as a value (`Event.optionsNotObject`); this is one way
  to show it, which nothing else rests on.
-/
import EmScale.Json.Basic
import EmScale.Number.Shortest

namespace EmScale.Json

/-! ### Numbers -/

/-- The text of digits whose last one stands for `10 ^ place`. -/
def printDigits (digits : Text) (place : Int) : Text :=
  let point := digits.length + place
  if 0 ≤ place ∧ point ≤ 16 then digits ++ List.replicate place.toNat '0' ++ ['.', '0']
  else if 0 < point ∧ point ≤ 16 then
    digits.take point.toNat ++ '.' :: digits.drop point.toNat
  else if -5 < point ∧ point ≤ 0 then
    '0' :: '.' :: (List.replicate (-point).toNat '0' ++ digits)
  else
    let lead := digits.take 1
    let more := digits.drop 1
    let sign := if 0 < point then ['+'] else []
    lead ++ (if more.isEmpty then [] else '.' :: more) ++
      'e' :: (sign ++ (toString (point - 1)).toList)

/-- The text of a floating point number; one that is not finite has none in JSON. -/
def printReal (x : Float) : Text :=
  let sign (negative : Bool) : Text := if negative then ['-'] else []
  match Binary64.decode x with
  | .nan | .infinite _ => "null".toList
  | .finite negative 0 _ => sign negative ++ ['0', '.', '0']
  | .finite negative mantissa exponent =>
    let (n, place) := Shortest.digits .toEven mantissa exponent
    sign negative ++ printDigits (Nat.toDigits 10 n) place

def printNumber : JsonNumber → Text
  | .integer n => (toString n).toList
  | .real x => printReal x

/-! ### Strings -/

/-- A character of a string as it is written between quotes. -/
def printCharacter (c : Char) : Text :=
  match c with
  | '"' => ['\\', '"']
  | '\\' => ['\\', '\\']
  | '\x08' => ['\\', 'b']
  | '\x0c' => ['\\', 'f']
  | '\n' => ['\\', 'n']
  | '\r' => ['\\', 'r']
  | '\t' => ['\\', 't']
  | _ =>
    if c.toNat < 0x20 then
      ['\\', 'u', '0', '0', Nat.digitChar (c.toNat / 16), Nat.digitChar (c.toNat % 16)]
    else [c]

def printString (t : Text) : Text :=
  '"' :: (t.flatMap printCharacter ++ ['"'])

/-! ### Values -/

mutual

/-- The compact text of a value. -/
def print : Json → Text
  | .null => "null".toList
  | .bool true => "true".toList
  | .bool false => "false".toList
  | .number n => printNumber n
  | .string t => printString t
  | .array items => '[' :: (printItems items ++ [']'])
  | .object members => '{' :: (printMembers members ++ ['}'])

def printItems : List Json → Text
  | [] => []
  | [item] => print item
  | item :: rest => print item ++ ',' :: printItems rest

def printMembers : List (Text × Json) → Text
  | [] => []
  | [(key, value)] => printString key ++ ':' :: print value
  | (key, value) :: rest => printString key ++ ':' :: (print value ++ ',' :: printMembers rest)

end

end EmScale.Json
