/-
Two ways to draw detections on an image: straight onto it, or onto an
overlay of its size that is then laid over it. With exact arithmetic both
give the same image (`repaint_then_composite`).

# Why

An overlay that has been repainted is clear but for its marks, whatever it
held before, and marks are opaque. Laying it over an image leaves a pixel
below a clear one and replaces a pixel below an opaque one
(`Pixel.blend_full`), which is what filling does. So both images show the
top mark of a place, and the image itself where there is none
(`get?_paint`).

The ink of labels is left out of both ways.
-/
import Mathlib.Tactic.Ring
import VideoWall.Proofs.Geometry.Exact
import VideoWall.Proofs.Overlay.Painting
import VideoWall.Raster.Blend

namespace VideoWall

-- ==================================================== exact blending

namespace Raster

open VideoWall.Geometry Scalar

/-- Exact levels: the nearest byte, halves up. -/
instance : Mixing ℚ where
  level x := UInt8.ofNat (min ⌊x + 1 / 2⌋.toNat 255)

/-- The level of a channel is its byte. -/
private theorem level_channel (b : UInt8) : Mixing.level (channel b : ℚ) = b := by
  have hfloor : ⌊(b.toNat : ℚ) + 1 / 2⌋ = b.toNat := by
    rw [Int.floor_natCast_add]
    norm_num
  have hbyte : b.toNat < 256 := b.toNat_lt
  show UInt8.ofNat (min ⌊(b.toNat : ℚ) + 1 / 2⌋.toNat 255) = b
  rw [hfloor, Int.toNat_natCast, Nat.min_eq_left (by omega)]
  exact UInt8.ofNat_toNat

/-- A colour that covers a pixel in full takes its place. -/
private theorem Pixel.blend_full (p : Pixel) (c : Rgb) : p.blend c (1 : ℚ) = c.opaquePixel := by
  have hclamp : clamp (ofNat 0) (ofNat 1) (1 : ℚ) = 1 :=
    clamp_inside (by norm_num) (by norm_num)
  have hmix : ∀ above below : UInt8,
      Mixing.level ((channel above : ℚ) * 1 + channel below * (ofNat 1 - 1)) = above := by
    intro above below
    have hsum : (channel above : ℚ) * 1 + channel below * (ofNat 1 - 1) = channel above := by
      rw [ofNat_rat]
      ring
    rw [hsum, level_channel]
  have hcover : Mixing.level (((1 : ℚ) + channel p.a / ofNat 255 * (ofNat 1 - 1)) * ofNat 255)
      = 255 := by
    have hsum : ((1 : ℚ) + channel p.a / ofNat 255 * (ofNat 1 - 1)) * ofNat 255
        = channel (255 : UInt8) := by
      rw [ofNat_rat, ofNat_rat]
      show ((1 : ℚ) + channel p.a / (255 : ℕ) * ((1 : ℕ) - 1)) * (255 : ℕ) = ((255 : ℕ) : ℚ)
      ring
    rw [hsum, level_channel]
  unfold Pixel.blend
  dsimp only
  rw [hclamp, if_neg (by simp), hmix, hmix, hmix, hcover]
  rfl

/-- What a surface shows when another is laid over it. -/
theorem Canvas.get?_compositeIn (α : Type) [Mixing α] (dest overlay : Canvas) (x y : Nat) :
    (dest.compositeIn α overlay).get? x y
      = (dest.get? x y).map fun p =>
          match overlay.get? x y with
          | none => p
          | some src =>
              if src.a = 0 then p else p.blend src.rgb (channel src.a / ofNat 255 : α) :=
  Canvas.get?_mapPixels dest _ x y

end Raster

-- ============================================================ overlays

namespace Overlay

open VideoWall.Geometry Raster Recorder

/-- Below a clear pixel of an overlay the image stays as it is. -/
theorem get?_composite_clear {dest overlay : Canvas} {x y : Nat}
    (h : overlay.get? x y = some .clear) :
    (dest.compositeIn ℚ overlay).get? x y = dest.get? x y := by
  rw [Canvas.get?_compositeIn, h]
  exact Option.map_id'

/-- An opaque pixel of an overlay takes the place of the one below. -/
theorem get?_composite_full {dest overlay : Canvas} {x y : Nat} {c : Rgb}
    (h : overlay.get? x y = some c.opaquePixel) :
    (dest.compositeIn ℚ overlay).get? x y = (dest.get? x y).map fun _ => c.opaquePixel := by
  have hfull : (channel c.opaquePixel.a / Scalar.ofNat 255 : ℚ) = 1 := by
    show ((255 : ℕ) : ℚ) / (255 : ℕ) = 1
    norm_num
  have hseen : c.opaquePixel.a ≠ 0 := by
    show (255 : UInt8) ≠ 0
    decide
  rw [Canvas.get?_compositeIn, h]
  simp only [if_neg hseen, hfull, Pixel.blend_full]
  rfl

variable {renderer : Renderer} {canvas image : Canvas}

/-- Opaque marks on a clear overlay of the image's size, laid over the
image, are the marks on the image. -/
private theorem composite_paint {ms : List Mark} (hwidth : canvas.width = image.width)
    (hheight : canvas.height = image.height)
    (hsolid : ∀ m ∈ ms, ∃ c : Rgb, m.pixel = c.opaquePixel) :
    image.compositeIn ℚ (paint canvas.cleared ms) = paint image ms := by
  refine Canvas.ext_get? (width_paint image ms).symm (height_paint image ms).symm fun x y => ?_
  have hover : (paint canvas.cleared ms).get? x y
      = if x < image.width ∧ y < image.height then
          some (((topMark? ms x y).map (·.pixel)).getD .clear)
        else none := by
    rw [get?_paint, Canvas.get?_cleared, hwidth, hheight]
    split
    · rfl
    · rfl
  rw [get?_paint]
  by_cases hinside : x < image.width ∧ y < image.height
  case neg =>
    rw [Canvas.get?_outside hinside, Option.map_none]
    exact Canvas.get?_outside hinside
  case pos =>
    rw [if_pos hinside] at hover
    cases htop : topMark? ms x y with
    | none =>
        rw [htop] at hover
        rw [get?_composite_clear hover]
        exact Option.map_id'.symm
    | some m =>
        obtain ⟨c, hc⟩ := hsolid m (mem_of_topMark? htop)
        rw [htop, Option.map_some, Option.getD_some, hc] at hover
        rw [get?_composite_full hover]
        simp only [Option.map_some, Option.getD_some, hc]

/-- Detections that are painted on an overlay of the image's size, whatever
it held, and laid over the image with exact arithmetic, are the detections
drawn on the image. Without a viewport or without detections the image
stays as it is, and what the overlay held does not matter. -/
theorem repaint_then_composite (renderer : Renderer) (image canvas : Canvas)
    (hwidth : canvas.width = image.width) (hheight : canvas.height = image.height)
    (detections : List Detection) :
    (∀ viewport, image.compositeIn ℚ (repaint renderer canvas (some viewport) detections)
        = draw renderer image viewport detections)
    ∧ image.compositeIn ℚ (repaint renderer canvas none detections) = image
    ∧ (∀ viewport, image.compositeIn ℚ (repaint renderer canvas viewport []) = image)
    ∧ ∀ viewport (other : Canvas), other.width = canvas.width → other.height = canvas.height →
        repaint renderer other viewport detections
          = repaint renderer canvas viewport detections := by
  have hclear : image.compositeIn ℚ (paint canvas.cleared []) = paint image [] :=
    composite_paint hwidth hheight (by simp)
  refine ⟨fun viewport => ?_, hclear, fun viewport => ?_, fun viewport other hw hh => ?_⟩
  · rw [draw_eq_paint, ← hwidth, ← hheight]
    refine composite_paint hwidth hheight fun m hm => ?_
    rcases pixel_of_mem_allMarks hm with hpixel | hpixel
    · exact ⟨renderer.colors.stroke, hpixel⟩
    · exact ⟨renderer.colors.labelBackground, hpixel⟩
  · cases viewport with
    | none => exact hclear
    | some v => exact hclear
  · have hcleared : other.cleared = canvas.cleared := by
      unfold Canvas.cleared
      rw [hw, hh]
    cases viewport with
    | none => exact hcleared
    | some v =>
        show draw renderer other.cleared v detections = draw renderer canvas.cleared v detections
        rw [hcleared]

/-- A small image, not quite opaque. -/
def smallImage : Canvas := .filled 4 3 ⟨10, 20, 30, 128⟩

/-- An overlay of its size on which something was painted before. -/
def usedOverlay : Canvas := .filled 4 3 ⟨9, 9, 9, 255⟩

/-- A car that reaches out of the image. -/
def partlySeen : Detection := { box := ⟨0.5, 0.5, 0.75, 0.75⟩, label := "car", confidence := 0.5 }

theorem repaint_then_composite_of_used :
    (usedOverlay.width = smallImage.width ∧ usedOverlay.height = smallImage.height)
    ∧ smallImage.compositeIn ℚ (repaint default usedOverlay (some ⟨1, 0, 0, 4, 3⟩) [partlySeen])
        = draw default smallImage ⟨1, 0, 0, 4, 3⟩ [partlySeen]
    ∧ smallImage.compositeIn ℚ (repaint default usedOverlay none [partlySeen]) = smallImage
    ∧ ((Canvas.blank 4 3).width = usedOverlay.width
      ∧ (Canvas.blank 4 3).height = usedOverlay.height
      ∧ repaint default (.blank 4 3) (some ⟨1, 0, 0, 4, 3⟩) [partlySeen]
          = repaint default usedOverlay (some ⟨1, 0, 0, 4, 3⟩) [partlySeen]) := by
  obtain ⟨hdrawn, hnone, -, hsame⟩ :=
    repaint_then_composite default smallImage usedOverlay rfl rfl [partlySeen]
  exact ⟨⟨rfl, rfl⟩, hdrawn _, hnone, rfl, rfl, hsame _ (.blank 4 3) rfl rfl⟩

end Overlay

end VideoWall
