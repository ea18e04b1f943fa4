/-
Binary floating formats in exact arithmetic. A finite value is
`m * 2 ^ e` with natural `m`; the formats differ only in how many bits
`m` and the exponent have. Everything else in the library that has to be
exact about floating point (shortest decimal text, reading a decimal,
counting nanoseconds) is stated on `m` and `e` and reads the bits here.
-/
namespace VideoWall.Numeral

/-- A binary interchange format: bits of the significand, the hidden one
included, and bits of the exponent. -/
structure Format where
  precision : Nat
  exponentBits : Nat

/-- Single precision. -/
def single : Format := ⟨24, 8⟩

/-- Double precision. -/
def double : Format := ⟨53, 11⟩

/-- What a bit pattern stands for. -/
inductive Reading where
  | nan
  | infinite (negative : Bool)
  | finite (negative : Bool) (m : Nat) (e : Int)
  deriving DecidableEq, Repr

namespace Format

/-- The largest value of the exponent field, which marks infinities and
NaN. -/
def topField (f : Format) : Nat := Nat.pow 2 f.exponentBits - 1

/-- The exponent of the last bit of the smallest values. -/
def minExponent (f : Format) : Int :=
  3 - Nat.pow 2 (f.exponentBits - 1) - f.precision

/-- What the bits of a number in a format say. -/
def read (f : Format) (bits : Nat) : Reading :=
  let fraction := bits % Nat.pow 2 (f.precision - 1)
  let field := bits / Nat.pow 2 (f.precision - 1) % Nat.pow 2 f.exponentBits
  let negative := bits / Nat.pow 2 (f.precision - 1 + f.exponentBits) % 2 = 1
  if field = f.topField then
    if fraction = 0 then .infinite negative else .nan
  else if field = 0 then .finite negative fraction f.minExponent
  else .finite negative (fraction + Nat.pow 2 (f.precision - 1)) (f.minExponent + field - 1)

/-- The bits of `m * 2 ^ e` for `m` of at most `precision` bits, where
`m` is short only at the least exponent. A carry out of the significand
moves into the exponent field by itself, up to infinity. -/
def bits (f : Format) (negative : Bool) (m : Nat) (e : Int) : Nat :=
  let sign := if negative then Nat.pow 2 (f.precision - 1 + f.exponentBits) else 0
  let top := f.topField * Nat.pow 2 (f.precision - 1)
  let field := (e - f.minExponent).toNat
  sign + min top (field * Nat.pow 2 (f.precision - 1) + m)

/-- A quotient rounded to the nearest natural number, ties to even. -/
def roundDiv (num den : Nat) : Nat :=
  let q := num / den
  let r := num % den
  if 2 * r < den then q
  else if 2 * r = den then q + q % 2
  else q + 1

/-- Multiplies a fraction by a power of two. -/
def scale (num den : Nat) (e : Int) : Nat × Nat :=
  if e ≥ 0 then (num * Nat.pow 2 e.toNat, den) else (num, den * Nat.pow 2 (-e).toNat)

/-- The bits of the value of the format nearest to `num / den`, ties to
even significands, for positive `den`. -/
def nearest (f : Format) (negative : Bool) (num den : Nat) : Nat :=
  if num = 0 then f.bits negative 0 f.minExponent
  else
    let guess : Int := (Nat.log2 num : Int) - Nat.log2 den - f.precision
    let (n, d) := scale num den (-guess)
    let e := if n / d < Nat.pow 2 f.precision then guess else guess + 1
    let e := max e f.minExponent
    let (n, d) := scale num den (-e)
    f.bits negative (roundDiv n d) e

end Format

/-- What the bits of a single say. -/
def readSingle (x : Float32) : Reading := single.read x.toBits.toNat

/-- What the bits of a double say. -/
def readDouble (x : Float) : Reading := double.read x.toBits.toNat

/-- The double nearest to a natural number. -/
def doubleOfNat (n : Nat) : Float := Float.ofBits (double.nearest false n 1).toUInt64

end VideoWall.Numeral
