/-
The strokes of a box, place by place.

A box is drawn as four fills, one along each of its sides. Each fill is a
line wide, or as wide as the box where the box is thinner than a line.

# The law

On a box that is at least a line wide and a line high, the fills paint the
pixels of the box within a line of one of its sides, and no others.

The lower and the right fill begin a whole line before the far corner. On
a thinner box that is before the near corner: what is painted there strays
from the box (`Corners.StraysAbove`, `StraysLeft`), and it does on every
box that is thinner than a line. The strays are all that goes wrong: the
pixels of the box are painted as they are on other boxes. That is
`strokes_on_box`, and `stray_stroke` is a stray.

# How

Which places the fills cover is a matter of inequalities
(`holds_strokes_iff`). All fills have one pixel, so a place that one of
them covers shows it, whichever comes last (`get?_paint_of_pixel`). A
detection is the strokes of its box with a label on top
(`draw_singleton`).
-/
import Mathlib.Logic.Basic
import VideoWall.Proofs.Overlay.Painting

namespace VideoWall.Overlay

open VideoWall.Geometry Raster Recorder

-- =============================================================== places

namespace Corners

variable (c : Corners) (line x y : Int)

/-- Where a box ends on the right. It has one column of pixels at least. -/
def right : Int := max c.x1 (c.x0 + 1)

/-- Where a box ends below. It has one row of pixels at least. -/
def bottom : Int := max c.y1 (c.y0 + 1)

/-- The pixels of a box. -/
def Covers : Prop := c.x0 ≤ x ∧ x < c.right ∧ c.y0 ≤ y ∧ y < c.bottom

/-- The pixels of a box within a line of its left, right, upper or lower
side. -/
def OnEdge : Prop :=
  c.Covers x y
    ∧ (x < c.x0 + line ∨ c.right - line ≤ x ∨ y < c.y0 + line ∨ c.bottom - line ≤ y)

/-- What the lower fill paints above a box that is lower than a line. -/
def StraysAbove : Prop :=
  (c.x0 ≤ x ∧ x < c.right)
    ∧ c.y1 - line ≤ y ∧ y < c.y0 ∧ y < c.y1 - line + min line (c.bottom - c.y0)

/-- What the right fill paints beside a box that is narrower than a line. -/
def StraysLeft : Prop :=
  (c.y0 ≤ y ∧ y < c.bottom)
    ∧ c.x1 - line ≤ x ∧ x < c.x0 ∧ x < c.x1 - line + min line (c.right - c.x0)

/-- What is painted beside a box. -/
def Strays : Prop := c.StraysAbove line x y ∨ c.StraysLeft line x y

instance : Decidable (c.Covers x y) := inferInstanceAs (Decidable (_ ∧ _ ∧ _ ∧ _))

instance : Decidable (c.OnEdge line x y) :=
  inferInstanceAs (Decidable (c.Covers x y ∧ (_ ∨ _ ∨ _ ∨ _)))

instance : Decidable (c.StraysAbove line x y) :=
  inferInstanceAs (Decidable ((_ ∧ _) ∧ _ ∧ _ ∧ _))

instance : Decidable (c.StraysLeft line x y) :=
  inferInstanceAs (Decidable ((_ ∧ _) ∧ _ ∧ _ ∧ _))

instance : Decidable (c.Strays line x y) :=
  inferInstanceAs (Decidable (c.StraysAbove line x y ∨ c.StraysLeft line x y))

variable {c line x y}

/-- A stray pixel is not covered by the box. -/
private theorem Strays.not_covers (h : c.Strays line x y) : ¬ c.Covers x y := by
  rintro ⟨hleft, -, htop, -⟩
  rcases h with ⟨-, -, habove, -⟩ | ⟨-, -, hbeside, -⟩
  · omega
  · omega

/-- Something strays just from the boxes that are thinner than a line. -/
theorem exists_strays_iff (hline : 1 ≤ line) :
    (∃ x y, c.Strays line x y) ↔ c.x1 - c.x0 < line ∨ c.y1 - c.y0 < line := by
  have hright : c.x0 + 1 ≤ c.right := Int.le_max_right ..
  have hbottom : c.y0 + 1 ≤ c.bottom := Int.le_max_right ..
  constructor
  · rintro ⟨x, y, ⟨-, hfrom, hto, -⟩ | ⟨-, hfrom, hto, -⟩⟩
    · omega
    · omega
  · rintro (hnarrow | hlow)
    · refine ⟨c.x1 - line, c.y0, Or.inr ⟨⟨?_, ?_⟩, ?_, ?_, ?_⟩⟩ <;> omega
    · refine ⟨c.x0, c.y1 - line, Or.inl ⟨⟨?_, ?_⟩, ?_, ?_, ?_⟩⟩ <;> omega

/-- Nothing strays from a box that is a line wide and high. -/
private theorem not_strays (hwidth : line ≤ c.x1 - c.x0) (hheight : line ≤ c.y1 - c.y0) :
    ¬ c.Strays line x y := by
  rintro (⟨-, hfrom, hto, -⟩ | ⟨-, hfrom, hto, -⟩)
  · omega
  · omega

end Corners

-- ================================================================ fills

variable {c : Corners} {line x y : Int}

/-- The four fills: upper, lower, left and right. -/
private theorem strokes_eq (c : Corners) (line : Int) :
    strokes c line
      = [ ⟨c.x0, c.y0, c.right - c.x0, min line (c.bottom - c.y0)⟩,
          ⟨c.x0, c.y1 - line, c.right - c.x0, min line (c.bottom - c.y0)⟩,
          ⟨c.x0, c.y0, min line (c.right - c.x0), c.bottom - c.y0⟩,
          ⟨c.x1 - line, c.y0, min line (c.right - c.x0), c.bottom - c.y0⟩ ] := by
  have hwidth : max (c.x1 - c.x0) 1 = c.right - c.x0 := by
    unfold Corners.right
    omega
  have hheight : max (c.y1 - c.y0) 1 = c.bottom - c.y0 := by
    unfold Corners.bottom
    omega
  unfold strokes
  rw [hwidth, hheight]

/-- The upper fill covers the pixels of the box within a line of its upper
side. -/
theorem holds_upper_iff :
    (⟨c.x0, c.y0, c.right - c.x0, min line (c.bottom - c.y0)⟩ : Rect).holds x y = true
      ↔ c.Covers x y ∧ y < c.y0 + line := by
  simp only [Rect.holds_iff, Corners.Covers]
  omega

/-- The left fill covers the pixels of the box within a line of its left
side. -/
theorem holds_left_iff :
    (⟨c.x0, c.y0, min line (c.right - c.x0), c.bottom - c.y0⟩ : Rect).holds x y = true
      ↔ c.Covers x y ∧ x < c.x0 + line := by
  simp only [Rect.holds_iff, Corners.Covers]
  omega

/-- Beside the upper fill, the lower one covers the pixels of the box within
a line of its lower side, and its strays. -/
theorem holds_lower_iff (hupper : ¬ (c.Covers x y ∧ y < c.y0 + line)) :
    (⟨c.x0, c.y1 - line, c.right - c.x0, min line (c.bottom - c.y0)⟩ : Rect).holds x y = true
      ↔ c.Covers x y ∧ c.bottom - line ≤ y ∨ c.StraysAbove line x y := by
  have hbottom : c.bottom = max c.y1 (c.y0 + 1) := rfl
  simp only [Rect.holds_iff, Corners.Covers, Corners.StraysAbove] at hupper ⊢
  omega

/-- Beside the left fill, the right one covers the pixels of the box within a
line of its right side, and its strays. -/
theorem holds_right_iff (hleft : ¬ (c.Covers x y ∧ x < c.x0 + line)) :
    (⟨c.x1 - line, c.y0, min line (c.right - c.x0), c.bottom - c.y0⟩ : Rect).holds x y = true
      ↔ c.Covers x y ∧ c.right - line ≤ x ∨ c.StraysLeft line x y := by
  have hright : c.right = max c.x1 (c.x0 + 1) := rfl
  simp only [Rect.holds_iff, Corners.Covers, Corners.StraysLeft] at hleft ⊢
  omega

/-- The fills together cover the edge of the box, and the strays. -/
theorem holds_strokes_iff :
    (∃ r ∈ strokes c line, r.holds x y = true) ↔ c.OnEdge line x y ∨ c.Strays line x y := by
  simp only [strokes_eq, List.mem_cons, List.not_mem_nil, or_false, exists_eq_or_imp,
    exists_eq_left, holds_upper_iff, holds_left_iff]
  by_cases hupper : c.Covers x y ∧ y < c.y0 + line
  · have hedge : c.OnEdge line x y := ⟨hupper.1, Or.inr (Or.inr (Or.inl hupper.2))⟩
    exact iff_of_true (Or.inl hupper) (Or.inl hedge)
  by_cases hleft : c.Covers x y ∧ x < c.x0 + line
  · have hedge : c.OnEdge line x y := ⟨hleft.1, Or.inl hleft.2⟩
    exact iff_of_true (Or.inr (Or.inr (Or.inl hleft))) (Or.inl hedge)
  rw [holds_lower_iff hupper, holds_right_iff hleft]
  unfold Corners.OnEdge Corners.Strays
  grind

-- ========================================================== detections

/-- How wide lines are on a surface of a factor. -/
def lineWidth (factor : Float32) : Int := round (Scalar.larger ((2 * factor).round) 1)

/-- What is drawn for a detection: the strokes of its box, and its label on
top. -/
private theorem draw_singleton (renderer : Renderer) (surface : Canvas)
    (viewport : Viewport Float32) (d : Detection) : draw renderer surface viewport [d]
      = (paint surface
          ((strokes (.around (viewport.map d.box))
              (lineWidth (sizeFactor surface.width surface.height))).map
            (⟨·, renderer.colors.stroke.opaquePixel⟩))).fill
          (labelRect renderer.font (.around (viewport.map d.box))
            (sizeFactor surface.width surface.height) (labelText d.label d.confidence))
          renderer.colors.labelBackground.opaquePixel := by
  unfold draw
  rw [List.flatMap_singleton]
  exact List.foldl_append ..

/-- Strokes of one pixel show at the edge of the box and where they stray. -/
theorem get?_paint_strokes (c : Corners) (line : Int) (surface : Canvas) (p : Pixel) (x y : Nat) :
    (paint surface ((strokes c line).map (⟨·, p⟩))).get? x y
      = if c.OnEdge line x y ∨ c.Strays line x y then (surface.get? x y).map fun _ => p
        else surface.get? x y := by
  have hpixel : ∀ m ∈ (strokes c line).map (⟨·, p⟩ : Rect → Mark),
      m.rect.holds x y = true → m.pixel = p := by
    intro m hm _
    obtain ⟨r, -, rfl⟩ := List.mem_map.1 hm
    rfl
  have hsomewhere : (∃ m ∈ (strokes c line).map (⟨·, p⟩ : Rect → Mark), m.rect.holds x y = true)
      ↔ c.OnEdge line x y ∨ c.Strays line x y := by
    rw [← holds_strokes_iff]
    simp only [List.mem_map, exists_exists_and_eq_and]
  rw [get?_paint_of_pixel hpixel]
  exact if_congr hsomewhere rfl rfl

/-- The strokes of a box paint its pixels within a line of one of its sides,
and on a box that is at least a line wide and high they change no other
pixel. What strays from the box does so on boxes that are thinner than a
line, on each of them. A detection is drawn as the strokes of its box, with
its label on top. -/
theorem strokes_on_box (c : Corners) (line : Int) (hline : 1 ≤ line) (surface : Canvas)
    (p : Pixel) :
    (∀ x y, (paint surface ((strokes c line).map (⟨·, p⟩))).get? x y
        = if c.OnEdge line x y ∨ c.Strays line x y then (surface.get? x y).map fun _ => p
          else surface.get? x y)
    ∧ (line ≤ c.x1 - c.x0 → line ≤ c.y1 - c.y0 →
        ∀ x y, (paint surface ((strokes c line).map (⟨·, p⟩))).get? x y
          = if c.OnEdge line x y then (surface.get? x y).map fun _ => p
            else surface.get? x y)
    ∧ ((∃ x y, c.Strays line x y ∧ ¬ c.Covers x y) ↔ c.x1 - c.x0 < line ∨ c.y1 - c.y0 < line)
    ∧ ∀ (renderer : Renderer) (viewport : Viewport Float32) (d : Detection) (x y : Nat),
        let box := Corners.around (viewport.map d.box)
        let factor := sizeFactor surface.width surface.height
        (draw renderer surface viewport [d]).get? x y
          = if (labelRect renderer.font box factor (labelText d.label d.confidence)).holds x y then
              (surface.get? x y).map fun _ => renderer.colors.labelBackground.opaquePixel
            else if box.OnEdge (lineWidth factor) x y ∨ box.Strays (lineWidth factor) x y then
              (surface.get? x y).map fun _ => renderer.colors.stroke.opaquePixel
            else surface.get? x y := by
  refine ⟨get?_paint_strokes c line surface p, ?_, ?_, ?_⟩
  · intro hwidth hheight x y
    have hstays : ¬ c.Strays line x y := Corners.not_strays hwidth hheight
    rw [get?_paint_strokes]
    simp only [hstays, or_false]
  · rw [← Corners.exists_strays_iff hline]
    simp only [and_iff_left_of_imp Corners.Strays.not_covers]
  · intro renderer viewport d x y box factor
    rw [draw_singleton, Canvas.get?_fill, get?_paint_strokes]
    split
    case isTrue hlabel => split <;> simp [Function.comp_def]
    case isFalse hlabel => rfl

/-- A box of four columns and three rows. -/
def smallBox : Corners := ⟨1, 1, 5, 4⟩

/-- A box without width. -/
def thinBox : Corners := ⟨20, 20, 20, 30⟩

/-- The strokes of the small box leave its middle as it is, and the thin box
has strays. -/
theorem strokes_on_box_of_two :
    ((1 : Int) ≤ 1 ∧ (1 : Int) ≤ smallBox.x1 - smallBox.x0 ∧ (1 : Int) ≤ smallBox.y1 - smallBox.y0
      ∧ (paint (.blank 7 6) ((strokes smallBox 1).map (⟨·, Rgb.opaquePixel ⟨255, 0, 0⟩⟩))).get? 4 3
          = some ⟨255, 0, 0, 255⟩
      ∧ (paint (.blank 7 6) ((strokes smallBox 1).map (⟨·, Rgb.opaquePixel ⟨255, 0, 0⟩⟩))).get? 3 2
          = some .clear)
    ∧ ((1 : Int) ≤ 2 ∧ thinBox.x1 - thinBox.x0 < 2
      ∧ ∃ x y, thinBox.Strays 2 x y ∧ ¬ thinBox.Covers x y) := by
  obtain ⟨-, hthick, -⟩ :=
    strokes_on_box smallBox 1 (by decide) (.blank 7 6) (Rgb.opaquePixel ⟨255, 0, 0⟩)
  obtain ⟨-, -, hthin, -⟩ := strokes_on_box thinBox 2 (by decide) (.blank 7 6) .clear
  have hwidth : (1 : Int) ≤ smallBox.x1 - smallBox.x0 := by decide
  have hheight : (1 : Int) ≤ smallBox.y1 - smallBox.y0 := by decide
  refine ⟨⟨by decide, hwidth, hheight, ?_, ?_⟩, by decide, by decide, hthin.2 (by decide)⟩
  · rw [hthick hwidth hheight, if_pos (by decide), Canvas.blank, Canvas.get?_filled]
    rfl
  · rw [hthick hwidth hheight, if_neg (by decide), Canvas.blank, Canvas.get?_filled]
    rfl

/-- The right stroke of a box without width lies beside the box: it begins
two columns before the column of the box and has the width of one. -/
theorem stray_stroke :
    (thinBox.x0 ≤ thinBox.x1 ∧ thinBox.y0 ≤ thinBox.y1)
    ∧ ¬ thinBox.Covers 18 25
    ∧ (Canvas.filled 40 40 ⟨9, 9, 9, 255⟩).get? 18 25 = some ⟨9, 9, 9, 255⟩
    ∧ (paint (.filled 40 40 ⟨9, 9, 9, 255⟩)
        ((strokes thinBox 2).map (⟨·, Rgb.opaquePixel ⟨255, 0, 0⟩⟩))).get? 18 25
        = some ⟨255, 0, 0, 255⟩ := by
  have hbefore : (Canvas.filled 40 40 ⟨9, 9, 9, 255⟩).get? 18 25 = some ⟨9, 9, 9, 255⟩ := by
    rw [Canvas.get?_filled]
    rfl
  refine ⟨by decide, by decide, hbefore, ?_⟩
  rw [get?_paint_strokes, if_pos (by decide), hbefore]
  rfl

end VideoWall.Overlay
