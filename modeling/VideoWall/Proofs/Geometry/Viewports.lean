/-
The laws of placing a frame and of clipping boxes to it, in exact
arithmetic.

# Placing

A frame that is fitted into an element keeps its shape, is centred in it
and reaches from side to side in one direction at least
(`displayViewport_fits`). Which direction is told by comparing the two
shapes, and that comparison is all that is known in each of the two cases.

# Clipping

The two directions of a box do not meddle with each other, so the clipping
is a matter of one extent on one line: of the extent only what is within
the frame is drawn, and of an extent that is all outside nothing is, at the
end that it lies behind (`clipped_of_clamped`). It takes nothing of a
viewport but that its area is not empty.
-/
import Mathlib.Algebra.Order.Group.Pointwise.Interval
import Mathlib.Tactic.FieldSimp
import Mathlib.Tactic.Linarith
import Mathlib.Tactic.NormNum
import Mathlib.Tactic.Positivity
import Mathlib.Tactic.Ring
import VideoWall.Geometry.Viewport
import VideoWall.Proofs.Geometry.Exact

namespace VideoWall.Geometry

open Scalar

-- =============================================================== placing

/-- The frame of a viewport fits an element: nothing of it is stretched, cut
off or out of the middle, and it could not be larger. -/
structure Viewport.Fits (v : Viewport ℚ)
    (nativeWidth nativeHeight elementWidth elementHeight : ℚ) : Prop where
  scale_width : v.scale = v.drawWidth / nativeWidth
  scale_height : v.scale = v.drawHeight / nativeHeight
  width_pos : 0 < v.drawWidth
  height_pos : 0 < v.drawHeight
  left_inside : 0 ≤ v.offsetX
  right_inside : v.offsetX + v.drawWidth ≤ elementWidth
  top_inside : 0 ≤ v.offsetY
  bottom_inside : v.offsetY + v.drawHeight ≤ elementHeight
  centred_across : 2 * v.offsetX + v.drawWidth = elementWidth
  centred_down : 2 * v.offsetY + v.drawHeight = elementHeight
  touches : v.drawWidth = elementWidth ∨ v.drawHeight = elementHeight

/-- What is centred in an element and no larger lies within it. -/
private theorem centred_inside {offset draw element : ℚ} (hcentred : offset = (element - draw) / 2)
    (hroom : draw ≤ element) :
    0 ≤ offset ∧ offset + draw ≤ element ∧ 2 * offset + draw = element := by
  subst hcentred
  refine ⟨?_, ?_, ?_⟩ <;> linarith

/-- A frame and an element that have an area have a viewport, and it fits. -/
theorem displayViewport_fits {nativeWidth nativeHeight elementWidth elementHeight : Nat}
    (hnativeWidth : 0 < nativeWidth) (hnativeHeight : 0 < nativeHeight)
    (helementWidth : 0 < elementWidth) (helementHeight : 0 < elementHeight) :
    ∃ v : Viewport ℚ,
      displayViewport? nativeWidth nativeHeight elementWidth elementHeight = some v
        ∧ v.Fits nativeWidth nativeHeight elementWidth elementHeight := by
  have hknown : ¬ (nativeWidth = 0 ∨ nativeHeight = 0 ∨ elementWidth = 0 ∨ elementHeight = 0) := by
    omega
  have hnw : (0 : ℚ) < nativeWidth := Nat.cast_pos.2 hnativeWidth
  have hnh : (0 : ℚ) < nativeHeight := Nat.cast_pos.2 hnativeHeight
  have hew : (0 : ℚ) < elementWidth := Nat.cast_pos.2 helementWidth
  have heh : (0 : ℚ) < elementHeight := Nat.cast_pos.2 helementHeight
  unfold displayViewport?
  rw [if_neg hknown]
  simp only [ofNat_rat, less_rat, decide_eq_true_eq]
  refine ⟨_, rfl, ?_⟩
  by_cases hwider : (elementWidth : ℚ) / elementHeight < nativeWidth / nativeHeight
  · -- the frame is wider than the element: there are bars above and below
    have hroom : (elementWidth : ℚ) / (nativeWidth / nativeHeight) ≤ elementHeight := by
      rw [div_le_iff₀ (by positivity)]
      rw [div_lt_iff₀ heh] at hwider
      linarith
    obtain ⟨hleft, hright, hacross⟩ := centred_inside rfl (le_refl (elementWidth : ℚ))
    obtain ⟨htop, hbottom, hdown⟩ := centred_inside rfl hroom
    simp only [hwider, if_true, Nat.cast_ofNat]
    exact {
      scale_width := rfl
      scale_height := by field_simp
      width_pos := hew
      height_pos := by positivity
      left_inside := hleft
      right_inside := hright
      top_inside := htop
      bottom_inside := hbottom
      centred_across := hacross
      centred_down := hdown
      touches := Or.inl rfl }
  · have hroom : (elementHeight : ℚ) * (nativeWidth / nativeHeight) ≤ elementWidth := by
      rw [not_lt, le_div_iff₀ heh] at hwider
      linarith
    obtain ⟨hleft, hright, hacross⟩ := centred_inside rfl hroom
    obtain ⟨htop, hbottom, hdown⟩ := centred_inside rfl (le_refl (elementHeight : ℚ))
    simp only [hwider, if_false, Nat.cast_ofNat]
    exact {
      scale_width := rfl
      scale_height := by field_simp
      width_pos := by positivity
      height_pos := heh
      left_inside := hleft
      right_inside := hright
      top_inside := htop
      bottom_inside := hbottom
      centred_across := hacross
      centred_down := hdown
      touches := Or.inr rfl }

/-- The viewports that there are: those of tiles and those of snapshots. -/
inductive Viewport.Placed : Viewport ℚ → Prop where
  | fitted {v : Viewport ℚ} (nativeWidth nativeHeight elementWidth elementHeight : Nat)
      (h : displayViewport? nativeWidth nativeHeight elementWidth elementHeight = some v) :
      Placed v
  | covering {v : Viewport ℚ} (width height : Nat) (h : nativeViewport? width height = some v) :
      Placed v

/-- No frame is placed on an empty area. -/
private theorem Viewport.Placed.pos {v : Viewport ℚ} (h : v.Placed) :
    0 < v.drawWidth ∧ 0 < v.drawHeight := by
  cases h with
  | fitted nativeWidth nativeHeight elementWidth elementHeight h =>
      by_cases hknown : nativeWidth = 0 ∨ nativeHeight = 0 ∨ elementWidth = 0 ∨ elementHeight = 0
      · unfold displayViewport? at h
        rw [if_pos hknown] at h
        cases h
      · have hnative : 0 < nativeWidth ∧ 0 < nativeHeight := by omega
        have helement : 0 < elementWidth ∧ 0 < elementHeight := by omega
        obtain ⟨w, hw, hfits⟩ := displayViewport_fits hnative.1 hnative.2 helement.1 helement.2
        rw [h] at hw
        cases hw
        exact ⟨hfits.width_pos, hfits.height_pos⟩
  | covering width height h =>
      unfold nativeViewport? at h
      by_cases hknown : width = 0 ∨ height = 0
      · rw [if_pos hknown] at h
        cases h
      · rw [if_neg hknown] at h
        cases h
        rw [not_or] at hknown
        exact ⟨Nat.cast_pos.2 (Nat.pos_of_ne_zero hknown.1),
          Nat.cast_pos.2 (Nat.pos_of_ne_zero hknown.2)⟩

-- ============================================================== clipping

/-- The part of an extent that is within the frame. An extent that is turned
round is only its first point. -/
def withinFrame (first extent : ℚ) : Set ℚ :=
  Set.Icc first (first + max extent 0) ∩ Set.Icc 0 1

/-- What lies within the frame is an interval between two clamped ends. -/
theorem withinFrame_eq (first extent : ℚ) :
    withinFrame first extent = Set.Icc (max first 0) (min (first + max extent 0) 1) :=
  Set.Icc_inter_Icc

/-- Nothing of an extent is within the frame just when it is before the frame
or behind it. -/
private theorem withinFrame_eq_empty {first extent : ℚ} :
    withinFrame first extent = ∅ ↔ first + max extent 0 < 0 ∨ 1 < first := by
  have hextent : first ≤ first + max extent 0 := le_add_of_nonneg_right (le_max_right extent 0)
  rw [withinFrame_eq, Set.Icc_eq_empty_iff, not_le, min_lt_iff, lt_max_iff, lt_max_iff]
  constructor
  · rintro ((h | h) | h | h)
    · exact absurd h hextent.not_gt
    · exact Or.inl h
    · exact Or.inr h
    · exact absurd h zero_lt_one.not_gt
  · rintro (h | h)
    · exact Or.inl (Or.inr h)
    · exact Or.inr (Or.inl h)

/-- An extent is clipped to a frame that lies from `offset` on over `draw`
pixels: what is drawn, from `start` on over `size` pixels, is where the part
within the frame comes to lie, and nothing is drawn, at the nearer end of the
frame, where there is no such part. -/
structure Clipped (offset draw first extent start size : ℚ) : Prop where
  part : withinFrame first extent ≠ ∅ →
    Set.Icc start (start + size) = (fun t => offset + draw * t) '' withinFrame first extent
  before : first + max extent 0 < 0 → start = offset ∧ size = 0
  behind : 1 < first → start = offset + draw ∧ size = 0
  size_nonneg : 0 ≤ size
  start_inside : offset ≤ start
  end_inside : start + size ≤ offset + draw

/-- Clamping the two ends of an extent clips it. -/
private theorem clipped_of_clamped {draw : ℚ} (hdraw : 0 < draw) (offset first extent : ℚ) :
    Clipped offset draw first extent (offset + clampUnit first * draw)
      ((larger (clampUnit (first + larger extent (ofNat 0))) (clampUnit first)
        - clampUnit first) * draw) := by
  simp only [larger_rat, clampUnit_rat, ofNat_rat, Nat.cast_zero]
  have hextent : first ≤ first + max extent 0 := le_add_of_nonneg_right (le_max_right extent 0)
  -- the box reaches from `first` to `last`, in units of the frame
  generalize hlast : first + max extent 0 = last at hextent
  have hordered : max 0 (min first 1) ≤ max 0 (min last 1) :=
    max_le_max_left 0 (min_le_min_right 1 hextent)
  rw [max_eq_left hordered]
  generalize hleft : max 0 (min first 1) = left at hordered
  generalize hright : max 0 (min last 1) = right at hordered
  have hwidth : 0 ≤ (right - left) * draw := mul_nonneg (sub_nonneg.2 hordered) hdraw.le
  refine ⟨fun hsome => ?_, fun hbefore => ?_, fun hbehind => ?_, hwidth, ?_, ?_⟩
  · rw [ne_eq, withinFrame_eq_empty, hlast, not_or, not_lt, not_lt] at hsome
    obtain ⟨hafter, hfront⟩ := hsome
    -- some of the box is within the frame, so each end is clamped on one side only
    have hleft' : max first 0 = left := by
      rw [← hleft, min_eq_left hfront, max_comm]
    have hright' : min last 1 = right := by
      rw [← hright, max_eq_right (le_min hafter zero_le_one)]
    have himage : (fun t => offset + draw * t) = (draw * · + offset) := by
      funext t
      rw [add_comm]
    rw [withinFrame_eq, hlast, hleft', hright', himage, Set.image_affine_Icc' hdraw]
    congr 1 <;> ring
  · rw [hlast] at hbefore
    have hl : left = 0 := by
      rw [← hleft, max_eq_left ((min_le_left first 1).trans (hextent.trans hbefore.le))]
    have hr : right = 0 := by
      rw [← hright, max_eq_left ((min_le_left last 1).trans hbefore.le)]
    rw [hl, hr]
    constructor <;> ring
  · have hl : left = 1 := by
      rw [← hleft, min_eq_right hbehind.le, max_eq_right zero_le_one]
    have hr : right = 1 := by
      rw [← hright, min_eq_right (hbehind.le.trans hextent), max_eq_right zero_le_one]
    rw [hl, hr]
    constructor <;> ring
  · have hnonneg : 0 ≤ left * draw := mul_nonneg (hleft ▸ le_max_left _ _) hdraw.le
    linarith
  · have hmost : right ≤ 1 := hright ▸ max_le zero_le_one (min_le_right _ _)
    calc offset + left * draw + (right - left) * draw = offset + right * draw := by ring
      _ ≤ offset + 1 * draw := by gcongr
      _ = offset + draw := by rw [one_mul]

-- =============================================================== the law

/-- A frame fits the element that it is shown on, and every box is clipped to
the frame in both directions, however the frame is placed. -/
theorem viewports_fit_and_clip :
    (∀ nativeWidth nativeHeight elementWidth elementHeight : Nat,
        0 < nativeWidth → 0 < nativeHeight → 0 < elementWidth → 0 < elementHeight →
        ∃ v : Viewport ℚ,
          displayViewport? nativeWidth nativeHeight elementWidth elementHeight = some v
            ∧ v.Fits nativeWidth nativeHeight elementWidth elementHeight)
      ∧ ∀ v : Viewport ℚ, v.Placed → ∀ box : UnitBox ℚ,
          Clipped v.offsetX v.drawWidth box.x box.width (v.map box).x (v.map box).width
            ∧ Clipped v.offsetY v.drawHeight box.y box.height (v.map box).y
              (v.map box).height := by
  refine ⟨fun nativeWidth nativeHeight elementWidth elementHeight hnw hnh hew heh => ?_,
    fun v hplaced box => ?_⟩
  · exact displayViewport_fits hnw hnh hew heh
  · obtain ⟨hwidth, hheight⟩ := hplaced.pos
    exact ⟨clipped_of_clamped hwidth v.offsetX box.x box.width,
      clipped_of_clamped hheight v.offsetY box.y box.height⟩

/-- A wide frame on a square element, and a box of which a part lies to the
left of the frame and all below it. -/
theorem wide_frame_fits_and_clips :
    (∃ v : Viewport ℚ, displayViewport? 16 9 32 32 = some v ∧ v.Fits 16 9 32 32)
      ∧ (⟨2, 0, 7, 32, 18⟩ : Viewport ℚ).Placed
      ∧ (⟨2, 0, 7, 32, 18⟩ : Viewport ℚ).map ⟨-1 / 4, 5 / 4, 1 / 2, 1⟩ = ⟨0, 25, 8, 0⟩
      ∧ Clipped 0 32 (-1 / 4) (1 / 2) 0 8 ∧ Clipped 7 18 (5 / 4) 1 25 0 := by
  have hplaced : (⟨2, 0, 7, 32, 18⟩ : Viewport ℚ).Placed := by
    apply Viewport.Placed.fitted 16 9 32 32
    unfold displayViewport?
    norm_num
  have hmap : (⟨2, 0, 7, 32, 18⟩ : Viewport ℚ).map ⟨-1 / 4, 5 / 4, 1 / 2, 1⟩
      = ⟨0, 25, 8, 0⟩ := by
    unfold Viewport.map
    norm_num
  have hclipped := viewports_fit_and_clip.2 _ hplaced ⟨-1 / 4, 5 / 4, 1 / 2, 1⟩
  rw [hmap] at hclipped
  have hfits := viewports_fit_and_clip.1 16 9 32 32 (by norm_num) (by norm_num) (by norm_num)
    (by norm_num)
  exact ⟨by exact_mod_cast hfits, hplaced, hmap, hclipped.1, hclipped.2⟩

end VideoWall.Geometry
