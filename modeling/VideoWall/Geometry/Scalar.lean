/-
The arithmetic that geometry is written in.

Screens are laid out in single precision, and every rounding of it can
be seen in the pixels. The laws of the layout are laws of exact
arithmetic. So the definitions take any `Scalar`: the running program
uses `Float32`, a theorem may use the rational numbers, and both speak
of the same formulas.
-/
import VideoWall.Numeral.Binary

namespace VideoWall.Geometry

/-- Numbers with the operations that geometry needs. `less` is the
strict order and `isNaN` marks what is outside of it. -/
class Scalar (α : Type) extends Add α, Sub α, Mul α, Div α where
  ofNat : Nat → α
  less : α → α → Bool
  isNaN : α → Bool

namespace Scalar

variable {α : Type} [Scalar α]

/-- The larger of two numbers; a NaN gives way to the other one. -/
def larger (a b : α) : α :=
  if isNaN a then b
  else if isNaN b then a
  else if less a b then b
  else a

/-- The number in `[low, high]` nearest to `a`; a NaN stays one. -/
def clamp (low high a : α) : α :=
  if less a low then low
  else if less high a then high
  else a

/-- The number in `[0, 1]` nearest to `a`, and nought for a NaN. -/
def clampUnit (a : α) : α :=
  if isNaN a then ofNat 0 else clamp (ofNat 0) (ofNat 1) a

end Scalar

instance : Scalar Float32 where
  ofNat n := Float32.ofBits (Numeral.single.nearest false n 1).toUInt32
  less a b := decide (a < b)
  isNaN a := a.isNaN

/-- A whole number as a single. -/
def single (n : Int) : Float32 :=
  Float32.ofBits (Numeral.single.nearest (n < 0) n.natAbs 1).toUInt32

/-- The whole number of an integral single; infinities stop at the ends
of the 64-bit range and a NaN is nought. -/
def whole (x : Float32) : Int := x.toInt64.toInt

/-- The largest whole number not above `x`. -/
def floor (x : Float32) : Int := whole x.floor

/-- The least whole number not below `x`. -/
def ceil (x : Float32) : Int := whole x.ceil

/-- The whole number nearest to `x`, halves away from nought. -/
def round (x : Float32) : Int := whole x.round

end VideoWall.Geometry
