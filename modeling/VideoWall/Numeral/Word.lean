/-
Calculations in words, natural numbers of 64 bits, and in half words.

A sum or a product that is no word stops the calculation, and so do a
difference below nought, a division by nought and a part of a list that
is not there.
-/
import VideoWall.Numeral.Decimal

namespace VideoWall.Numeral.Word

/-- What stops a calculation. -/
inductive Fault where
  | overflow
  | underflow
  | divisionByZero
  | outOfRange
  deriving DecidableEq, Repr

/-- A result, unless its calculation was stopped. -/
abbrev Checked (α : Type) := Except Fault α

/-- The result of a calculation, if it is a word. -/
def ofNat (n : Nat) : Checked Nat := if n ≤ maxWord64 then .ok n else .error .overflow

/-- The sum, if it is a word. -/
def add (a b : Nat) : Checked Nat := ofNat (a + b)

/-- The product, if it is a word. -/
def mul (a b : Nat) : Checked Nat := ofNat (a * b)

/-- The difference, which is never below nought. -/
def sub (a b : Nat) : Checked Nat := if b ≤ a then .ok (a - b) else .error .underflow

/-- The quotient, but not by nought. -/
def div (a b : Nat) : Checked Nat := if b = 0 then .error .divisionByZero else .ok (a / b)

/-- The remainder, but not by nought. -/
def rem (a b : Nat) : Checked Nat := if b = 0 then .error .divisionByZero else .ok (a % b)

/-- The quotient, rounded up: one more, if something is left over. -/
def ceilDiv (a b : Nat) : Checked Nat := do
  let quotient ← div a b
  if a % b = 0 then pure quotient else add quotient 1

/-- The nearest word to a word and a whole number. -/
def saturatingAdd (a : Nat) (delta : Int) : Nat := min (Int.toNat (a + delta)) maxWord64

/-- The largest half word. -/
def maxHalf : Nat := 4294967295

/-- The sum, if it is a half word. -/
def addHalf (a b : Nat) : Checked Nat :=
  if a + b ≤ maxHalf then .ok (a + b) else .error .overflow

/-- The lower half of a word. -/
def lowerHalf (a : Nat) : Nat := a % (maxHalf + 1)

/-- The items of a list from one index up to another. -/
def slice {α : Type} (items : List α) (start stop : Nat) : Checked (List α) :=
  if start ≤ stop ∧ stop ≤ items.length then .ok ((items.take stop).drop start)
  else .error .outOfRange

-- ==================================================== what is not stopped

variable {a b n : Nat}

/-- A number that is a word is calculated with as it is. -/
theorem ofNat_of_le (h : n ≤ maxWord64) : ofNat n = .ok n := if_pos h

theorem mul_of_le (h : a * b ≤ maxWord64) : mul a b = .ok (a * b) := ofNat_of_le h

theorem sub_of_le (h : b ≤ a) : sub a b = .ok (a - b) := if_pos h

theorem div_of_pos (h : 0 < b) (a : Nat) : div a b = .ok (a / b) := if_neg (Nat.ne_of_gt h)

theorem rem_of_pos (h : 0 < b) (a : Nat) : rem a b = .ok (a % b) := if_neg (Nat.ne_of_gt h)

theorem addHalf_of_le (h : a + b ≤ maxHalf) : addHalf a b = .ok (a + b) := if_pos h

theorem lowerHalf_of_le (h : a ≤ maxHalf) :
    lowerHalf a = a := Nat.mod_eq_of_lt (Nat.lt_succ_of_le h)

end VideoWall.Numeral.Word
