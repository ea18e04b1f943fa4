/-
Exact arithmetic: the rational numbers as scalars. The formulas of the
geometry and of blending hold for them without rounding, so a law of these
formulas is a law of rational numbers.
-/
import Mathlib.Data.Rat.Floor
import VideoWall.Geometry.Scalar

namespace VideoWall.Geometry.Scalar

instance : Scalar ℚ where
  ofNat n := n
  less a b := decide (a < b)
  isNaN _ := false

@[simp]
theorem ofNat_rat (n : Nat) : (ofNat n : ℚ) = n := rfl

@[simp]
theorem less_rat (a b : ℚ) : less a b = decide (a < b) := rfl

@[simp]
theorem isNaN_rat (a : ℚ) : isNaN a = false := rfl

/-- What lies between the bounds stays as it is. -/
theorem clamp_inside {low high a : ℚ} (hlow : low ≤ a) (hhigh : a ≤ high) :
    clamp low high a = a := by
  unfold clamp
  rw [less_rat, less_rat, decide_eq_false hlow.not_gt, decide_eq_false hhigh.not_gt]
  rfl

/-- The larger of two fractions is their maximum. -/
@[simp]
theorem larger_rat (a b : ℚ) : larger a b = max a b := by
  unfold larger
  simp only [isNaN_rat, less_rat, Bool.false_eq_true, if_false, decide_eq_true_eq]
  split
  case isTrue hless => exact (max_eq_right hless.le).symm
  case isFalse hless => exact (max_eq_left (not_lt.1 hless)).symm

/-- To clamp a fraction to the unit is a maximum and a minimum. -/
@[simp]
theorem clampUnit_rat (a : ℚ) : clampUnit a = max 0 (min a 1) := by
  unfold clampUnit clamp
  simp only [isNaN_rat, less_rat, ofNat_rat, Bool.false_eq_true, if_false, decide_eq_true_eq,
    Nat.cast_zero, Nat.cast_one]
  split
  case isTrue hbelow => exact (max_eq_left ((min_le_left a 1).trans hbelow.le)).symm
  case isFalse hbelow =>
    have hnonneg : 0 ≤ a := not_lt.1 hbelow
    split
    case isTrue habove =>
      rw [min_eq_right habove.le]
      exact (max_eq_right zero_le_one).symm
    case isFalse habove =>
      rw [min_eq_left (not_lt.1 habove)]
      exact (max_eq_right hnonneg).symm

end VideoWall.Geometry.Scalar
