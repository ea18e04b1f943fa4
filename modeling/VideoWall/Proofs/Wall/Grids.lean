/-
Grids near to a square.

For `n` tiles there are as many columns as the square root of `n`, rounded
up, and then as many rows as it takes (`NearSquare`). So no row is empty,
and there is at most one column more than rows.

# How

The root is found by halving an interval that holds it; the interval is a
single number before the fuel is used up (`sqrtWithin_eq`). The table of
small numbers says the same as the rule for large ones
(`optimalGrid_eq_nearSquare`).
-/
import Mathlib.Analysis.Real.Sqrt
import VideoWall.Wall.Layout

namespace VideoWall.Wall

variable {n columns rows : Nat}

-- ================================================================ roots

/-- Halving an interval that holds the root leaves the root, if there is
fuel for its length. -/
private theorem sqrtWithin_eq {fuel low high : Nat} (hlow : low * low ≤ n) (hhigh : n < high * high)
    (hfuel : high ≤ low + 2 ^ fuel) : sqrtWithin n fuel low high = n.sqrt := by
  have hend : ∀ low high : Nat, low * low ≤ n → n < high * high → high ≤ low + 1 →
      low = n.sqrt := by
    intro low high hlow hhigh hshort
    exact Nat.eq_sqrt.2 ⟨hlow, hhigh.trans_le (Nat.mul_self_le_mul_self hshort)⟩
  induction fuel generalizing low high with
  | zero => exact hend low high hlow hhigh hfuel
  | succ fuel ih =>
      rw [Nat.pow_succ] at hfuel
      unfold sqrtWithin
      split
      case isTrue hshort => exact hend low high hlow hhigh hshort
      case isFalse hlong =>
        dsimp only
        split
        case isTrue hmid => exact ih hmid hhigh (by omega)
        case isFalse hmid => exact ih hlow (Nat.lt_of_not_le hmid) (by omega)

/-- The loop finds the root rounded down. -/
theorem squareRoot_eq (n : Nat) : squareRoot n = n.sqrt := by
  have hfull : n < 2 ^ (n.log2 / 2 + 1) * 2 ^ (n.log2 / 2 + 1) := by
    rw [← Nat.pow_add]
    exact Nat.lt_log2_self.trans_le (Nat.pow_le_pow_right (by decide) (by omega))
  have hfuel : 2 ^ (n.log2 / 2 + 1) ≤ 0 + 2 ^ (n.log2 + 2) := by
    rw [Nat.zero_add]
    exact Nat.pow_le_pow_right (by decide) (by omega)
  exact sqrtWithin_eq (Nat.zero_le n) hfull hfuel

-- ============================================================ quotients

/-- The quotient rounded up is large enough. -/
private theorem le_mul_ceilDiv {b : Nat} (hb : 0 < b) (a : Nat) : a ≤ b * ceilDiv a b := by
  have hquotient := Nat.lt_mul_div_succ (a + b - 1) hb
  unfold ceilDiv
  rw [Nat.mul_add] at hquotient
  omega

/-- And nothing less is. -/
private theorem mul_pred_ceilDiv_lt {a b : Nat} (ha : 0 < a) : b * (ceilDiv a b - 1) < a := by
  have hquotient := Nat.mul_div_le (a + b - 1) b
  unfold ceilDiv
  rw [Nat.mul_sub]
  omega

-- ================================================================ grids

/-- The least columns of a square with room for `n` tiles, and the least
rows of so many columns with room for them. -/
structure NearSquare (n columns rows : Nat) : Prop where
  square : n ≤ columns * columns
  least_square : (columns - 1) * (columns - 1) < n
  room : n ≤ columns * rows
  least_room : columns * (rows - 1) < n

/-- The grid that is computed is near a square. -/
private theorem nearSquare_nearSquare (hn : 1 ≤ n) :
    NearSquare n (nearSquare n).1 (nearSquare n).2 := by
  have hroot := Nat.sqrt_le n
  have hnext := Nat.lt_succ_sqrt n
  have hcolumns : n ≤ (nearSquare n).1 * (nearSquare n).1
      ∧ ((nearSquare n).1 - 1) * ((nearSquare n).1 - 1) < n := by
    unfold nearSquare
    rw [squareRoot_eq]
    dsimp only
    split
    case isTrue hsquare =>
      have hpos : 0 < n.sqrt := Nat.sqrt_pos.2 hn
      exact ⟨hsquare.ge, (Nat.mul_self_lt_mul_self (by omega)).trans_eq hsquare⟩
    case isFalse hbetween => exact ⟨hnext.le, lt_of_le_of_ne hroot hbetween⟩
  have hpos : 0 < (nearSquare n).1 := by
    refine Nat.pos_of_ne_zero fun hzero => ?_
    rw [hzero] at hcolumns
    omega
  have hrows : (nearSquare n).2 = ceilDiv n (nearSquare n).1 := rfl
  refine ⟨hcolumns.1, hcolumns.2, ?_, ?_⟩
  · rw [hrows]
    exact le_mul_ceilDiv hpos n
  · rw [hrows]
    exact mul_pred_ceilDiv_lt hn

/-- The table of small numbers says what the rule says. -/
theorem optimalGrid_eq_nearSquare (hn : 1 ≤ n) : optimalGrid n = nearSquare n := by
  by_cases hsmall : n ≤ 20
  · have htable : ∀ n ≤ 20, 1 ≤ n → optimalGrid n = nearSquare n := by decide
    exact htable n hsmall hn
  · unfold optimalGrid
    repeat rw [if_neg (by omega)]

/-- The optimal grid is near a square. -/
theorem nearSquare_optimalGrid (hn : 1 ≤ n) :
    NearSquare n (optimalGrid n).1 (optimalGrid n).2 := by
  rw [optimalGrid_eq_nearSquare hn]
  exact nearSquare_nearSquare hn

namespace NearSquare

variable (h : NearSquare n columns rows)

include h

theorem columns_pos : 0 < columns := by
  refine Nat.pos_of_ne_zero ?_
  rintro rfl
  have := h.square
  have := h.least_square
  omega

theorem rows_pos : 0 < rows := by
  refine Nat.pos_of_ne_zero ?_
  rintro rfl
  have := h.room
  have := h.least_room
  omega

/-- The columns are the square root, rounded up. -/
theorem columns_eq : columns = ⌈√(n : ℝ)⌉₊ := by
  symm
  rw [Nat.ceil_eq_iff h.columns_pos.ne', Real.lt_sqrt (Nat.cast_nonneg _),
    Real.sqrt_le_left (Nat.cast_nonneg _), sq, sq]
  exact ⟨by exact_mod_cast h.least_square, by exact_mod_cast h.square⟩

/-- The rows are the quotient, rounded up. -/
theorem rows_eq : rows = ⌈(n : ℝ) / (columns : ℝ)⌉₊ := by
  have hcolumns : (0 : ℝ) < columns := Nat.cast_pos.2 h.columns_pos
  symm
  rw [Nat.ceil_eq_iff h.rows_pos.ne', lt_div_iff₀' hcolumns, div_le_iff₀' hcolumns]
  exact ⟨by exact_mod_cast h.least_room, by exact_mod_cast h.room⟩

/-- A grid is not higher than wide. -/
theorem rows_le : rows ≤ columns := by
  have hrows : rows - 1 < columns :=
    Nat.lt_of_mul_lt_mul_left (h.least_room.trans_le h.square)
  omega

/-- A grid has one column more than rows at most: with two more, a square of
one column less would have room for its cells. -/
theorem columns_le : columns ≤ rows + 1 := by
  by_contra hwide
  have hmore : rows + 2 ≤ columns := by omega
  obtain ⟨k, rfl⟩ := Nat.exists_eq_add_of_le hmore
  have hroom := h.room
  have hsquare := h.least_square
  have hless : (rows + 2 + k) * rows < (rows + 1 + k) * (rows + 1 + k) := by nlinarith
  rw [show rows + 2 + k - 1 = rows + 1 + k by omega] at hsquare
  omega

/-- Fewer cells are empty than there are columns. -/
theorem cells_lt : columns * rows < n + max columns rows := by
  have hleast := h.least_room
  have hpos := h.rows_pos
  have hrow : columns * rows = columns * (rows - 1) + columns := by
    rw [← Nat.mul_succ]
    congr 1
    omega
  omega

end NearSquare

/-- A page has no more streams than its grid has cells. -/
theorem pageSize_le_cells (layout : Layout) :
    layout.pageSize ≤ layout.dimensions.1 * layout.dimensions.2 := by
  cases layout with
  | single => exact Nat.le_refl 1
  | count streams =>
      show max streams 1 ≤ (optimalGrid streams).1 * (optimalGrid streams).2
      rcases Nat.eq_zero_or_pos streams with rfl | hpos
      · exact Nat.le_refl 1
      · rw [Nat.max_eq_left hpos]
        exact (nearSquare_optimalGrid hpos).room
  | custom columns rows => exact Nat.le_refl _

end VideoWall.Wall
