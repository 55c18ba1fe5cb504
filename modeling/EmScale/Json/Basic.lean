/-
  EmScale/Json/Basic.lean
  =======================
  **JSON values.**

  Options arrive as JSON.  A number is kept as an integer where it is written as one and
  fits into 64 bits, because some options take integers only.  An object lists its members
  in the order of their keys, each key once.
-/
import EmScale.Text

namespace EmScale

/-- A JSON number: an integer, or a floating point number. -/
inductive JsonNumber where
  | integer (n : Int)
  | real (x : Float)
deriving Inhabited

/-- The floating point number that is nearest to a number. -/
def JsonNumber.toFloat : JsonNumber → Float
  | integer n => Float.ofInt n
  | real x => x

/-- A JSON value. -/
inductive Json where
  | null
  | bool (b : Bool)
  | number (n : JsonNumber)
  | string (t : Text)
  | array (items : List Json)
  | object (members : List (Text × Json))
deriving Inhabited

namespace Json

def get? (key : Text) : Json → Option Json
  | object members => members.lookup key
  | _ => none

end Json

end EmScale
