/-
The shortest decimal text of a binary floating value: the fewest digits
that read back to the same value, and of those the nearest to it. The
values that read back form an interval around `m * 2 ^ e`; its ends
belong to it when `m` is even. For each number of digits the only two
decimals worth testing are the neighbours of the value on that grid.
-/
import VideoWall.Numeral.Binary

namespace VideoWall.Numeral

-- ===================================================== the interval

/-- The reals that round to a value, on one scale: every bound and the
value itself are numerators over the same denominator. -/
structure Interval where
  low : Nat
  value : Nat
  high : Nat
  den : Nat
  closed : Bool

/-- The interval of `m * 2 ^ e`. Below a power of two the neighbour is
half as far, unless the exponent is already the least one. -/
def Format.interval (f : Format) (m : Nat) (e : Int) : Interval :=
  let narrow := m = Nat.pow 2 (f.precision - 1) ∧ e ≠ f.minExponent
  let below := if narrow then 1 else 2
  let scaled (k : Nat) : Nat := if e ≥ 0 then k * Nat.pow 2 e.toNat else k
  let den := if e ≥ 0 then 4 else 4 * Nat.pow 2 (-e).toNat
  ⟨scaled (4 * m - below), scaled (4 * m), scaled (4 * m + 2), den, m % 2 = 0⟩

/-- Whether `d * 10 ^ k` lies in the interval. -/
def Interval.contains (i : Interval) (d : Nat) (k : Int) : Bool :=
  let up := if k ≥ 0 then Nat.pow 10 k.toNat else 1
  let down := if k ≥ 0 then 1 else Nat.pow 10 (-k).toNat
  let x := d * up * i.den
  let low := i.low * down
  let high := i.high * down
  if i.closed then low ≤ x && x ≤ high else low < x && x < high

/-- The largest `d` with `d * 10 ^ k` at most the value. -/
def Interval.floor (i : Interval) (k : Int) : Nat :=
  if k ≥ 0 then i.value / (i.den * Nat.pow 10 k.toNat)
  else i.value * Nat.pow 10 (-k).toNat / i.den

/-- Whether `(d + 1) * 10 ^ k` is nearer to the value than `d * 10 ^ k`,
which lies below it; a tie goes to the even one. -/
def Interval.upperNearer (i : Interval) (d : Nat) (k : Int) : Bool :=
  let up := if k ≥ 0 then Nat.pow 10 k.toNat else 1
  let down := if k ≥ 0 then 1 else Nat.pow 10 (-k).toNat
  let twice := 2 * i.value * down
  let middle := (2 * d + 1) * up * i.den
  middle < twice || (middle = twice && d % 2 = 1)

/-- The nearer of the value's neighbours on the grid of `10 ^ k` that
lies in the interval. -/
def Interval.onGrid? (i : Interval) (k : Int) : Option Nat :=
  let d := i.floor k
  let lower := i.contains d k
  let upper := i.contains (d + 1) k
  if lower && upper then some (if i.upperNearer d k then d + 1 else d)
  else if lower then some d
  else if upper then some (d + 1)
  else none

-- ======================================================= the digits

/-- Decimal digits and a power of ten. -/
structure Decimal where
  digits : Nat
  exponent : Int
  deriving DecidableEq, Repr

/-- Moves zeros from the end of the digits into the exponent. -/
def Decimal.strip (fuel : Nat) (d : Decimal) : Decimal :=
  match fuel with
  | 0 => d
  | fuel + 1 =>
      if d.digits ≠ 0 ∧ d.digits % 10 = 0 then
        strip fuel ⟨d.digits / 10, d.exponent + 1⟩
      else d

/-- The power of ten of the leading digit, by trying upwards from a
guess that is at most two too small. -/
def Interval.leading (i : Interval) : Int :=
  let bits : Int := (Nat.log2 i.value : Int) - Nat.log2 i.den
  let guess := bits * 30103 / 100000 - 1
  if i.floor (guess + 2) ≠ 0 then guess + 2
  else if i.floor (guess + 1) ≠ 0 then guess + 1
  else guess

/-- Tries the grids from coarse to fine, `count` of them. -/
def Interval.search (i : Interval) : (count : Nat) → (k : Int) → Decimal
  | 0, k => ⟨i.floor k, k⟩
  | count + 1, k =>
      match i.onGrid? k with
      | some d => ⟨d, k⟩
      | none => search i count (k - 1)

/-- The shortest digits of the positive value `m * 2 ^ e`. -/
def Format.shortest (f : Format) (m : Nat) (e : Int) : Decimal :=
  let i := f.interval m e
  (i.search 17 i.leading).strip 20

end VideoWall.Numeral
