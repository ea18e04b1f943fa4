/-
Looking into a value that is taken as it comes: what is missing or of
another type reads as nothing, nought or the empty text.
-/
import VideoWall.Json.Decode

namespace VideoWall.Json.Value

/-- The text that a value is, if it is one. -/
def word? : Value → Option String
  | .text s => some s
  | _ => none

/-- The text that a value is, or none. -/
def word (v : Value) : String := v.word?.getD ""

/-- A whole number, a fraction without what is behind the point; nought for
what is no number. -/
def whole : Value → Int
  | .number (.integer n) => n
  | .number n => n.toDouble.toInt64.toInt
  | _ => 0

/-- A number that counts; nought for what is none. -/
def count (v : Value) : Nat := v.whole.toNat

/-- The count, if it is a whole number. -/
def count? : Value → Option Nat
  | .number (.integer n) => n.toNat?
  | _ => none

/-- The count, or another one if it is no whole number. -/
def countOr (other : Nat) (v : Value) : Nat := v.count?.getD other

/-- The truth value that a value is, or another. -/
def flagOr (other : Bool) : Value → Bool
  | .bool b => b
  | _ => other

/-- A flag that is down unless it is given. -/
def flag (v : Value) : Bool := v.flagOr false

/-- The items of a list, none of anything else. -/
def items : Value → List Value
  | .array l => l
  | _ => []

/-- The members of an object, none of anything else. -/
def members : Value → List (String × Value)
  | .object l => l
  | _ => []

/-- The member of a name, `null` where there is none. -/
def part (v : Value) (name : String) : Value := (v.get? name).getD .null

/-- The item at a place, `null` where there is none. -/
def nth (v : Value) (i : Nat) : Value := v.items.getD i .null

end VideoWall.Json.Value
