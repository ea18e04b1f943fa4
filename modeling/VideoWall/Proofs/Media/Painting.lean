/-
Frames on surfaces, pixel by pixel.

# What is painted

A viewport covers the pixels between its edges, which are rounded to whole
pixels (`Covers`). Painted are the pixels of the scaled frame there, and black
bars everywhere else (`painted`), whatever the surface and the buffers of the
scaler held before. That needs of the resizer no more than that it fills the
picture it is given, with bytes that depend on the source and the size alone
(`Resizer.Fills`). With a triangle for weights it is what a tile of the wall
shows (`paint_triangle`).

# Why nothing is put elsewhere

The edges of a viewport are cut off at the far sides of the surface only. None
of them is negative once it is rounded, so what is left of a viewport lies
within the surface if it is not empty (`placement_within`). The pixels of the
frame are counted through: pixel `i` is put at the column `i % width` and the
row `i / width` of the placement, which no two of them share. So a step puts one
pixel of the placement (`putPixels_step`), and a run puts those whose index it
passes (`putPixels_eq`).
-/
import Mathlib.Tactic.SplitIfs
import VideoWall.Media.Scaler
import VideoWall.Proofs.Raster.Places

namespace VideoWall.Media

open VideoWall.Geometry Raster Numeral

variable {x y i width height : Nat} {p : Placement} {bytes : Array UInt8} {surface : Canvas}
variable {v : Viewport Float32} {f : Frame} {resizer : Resizer}

-- ============================================================== placements

/-- Whether a viewport covers a pixel: its edges are rounded to whole
pixels. -/
def Covers (v : Viewport Float32) (x y : Nat) : Prop :=
  (wholePixels v.offsetX ≤ x ∧ x < wholePixels (v.offsetX + v.drawWidth))
    ∧ wholePixels v.offsetY ≤ y ∧ y < wholePixels (v.offsetY + v.drawHeight)

instance (v : Viewport Float32) (x y : Nat) : Decidable (Covers v x y) :=
  inferInstanceAs (Decidable ((_ ∧ _) ∧ _ ∧ _))

namespace Placement

/-- Whether a pixel lies in a placement. -/
def Holds (p : Placement) (x y : Nat) : Prop :=
  (p.x ≤ x ∧ x < p.x + p.width) ∧ p.y ≤ y ∧ y < p.y + p.height

instance (p : Placement) (x y : Nat) : Decidable (p.Holds x y) :=
  inferInstanceAs (Decidable ((_ ∧ _) ∧ _ ∧ _))

/-- Whether there is room for a pixel. -/
def HasRoom (p : Placement) : Prop := 0 < p.width ∧ 0 < p.height

instance (p : Placement) : Decidable p.HasRoom := inferInstanceAs (Decidable (_ ∧ _))

/-- The index of the pixel that is put at a place of a placement. -/
def index (p : Placement) (x y : Nat) : Nat := (y - p.y) * p.width + (x - p.x)

/-- Whether a placement lies within a surface, whose pixels can be counted with
half words. -/
structure Within (p : Placement) (width height : Nat) : Prop where
  right : p.x + p.width ≤ width
  bottom : p.y + p.height ≤ height
  small : width * height ≤ Word.maxHalf

/-- A place within a surface has no more pixels than the surface. -/
theorem Within.count_le (h : p.Within width height) : p.width * p.height ≤ width * height :=
  Nat.mul_le_mul (Nat.le_trans (Nat.le_add_left ..) h.right)
    (Nat.le_trans (Nat.le_add_left ..) h.bottom)

/-- The place of an index lies in the placement. -/
theorem holds_place (h : i < p.width * p.height) :
    p.Holds (p.x + i % p.width) (p.y + i / p.width) := by
  have hwidth : 0 < p.width := Nat.pos_of_mul_pos_right (Nat.zero_lt_of_lt h)
  have hcolumn := Nat.mod_lt i hwidth
  have hrow : i / p.width < p.height := Nat.div_lt_of_lt_mul h
  exact ⟨⟨Nat.le_add_right .., Nat.add_lt_add_left hcolumn _⟩, Nat.le_add_right ..,
    Nat.add_lt_add_left hrow _⟩

/-- The pixels of a place are numbered row by row. -/
private theorem index_place (i : Nat) : p.index (p.x + i % p.width) (p.y + i / p.width) = i := by
  rw [index, Nat.add_sub_cancel_left, Nat.add_sub_cancel_left, Nat.div_add_mod']

/-- Each place of a placement has an index of its own. -/
theorem eq_place_iff (h : p.Holds x y) :
    (x = p.x + i % p.width ∧ y = p.y + i / p.width) ↔ p.index x y = i := by
  obtain ⟨⟨hleft, hright⟩, htop, hbottom⟩ := h
  have hcolumn : x - p.x < p.width := by omega
  constructor
  · rintro ⟨rfl, rfl⟩
    exact index_place i
  · rintro rfl
    rw [index, index_mod hcolumn, index_div hcolumn]
    omega

/-- A pixel of the place has a number below their count. -/
private theorem index_lt_of_holds (h : p.Holds x y) : p.index x y < p.width * p.height := by
  obtain ⟨⟨hleft, hright⟩, htop, hbottom⟩ := h
  exact index_lt (by omega) (by omega)

end Placement

/-- A placement with room for a pixel lies within its surface. -/
theorem placement_within (hplaced : placement v width height = p) (hroom : p.HasRoom)
    (hsmall : width * height ≤ Word.maxHalf) : p.Within width height := by
  subst hplaced
  unfold placement Placement.HasRoom at *
  dsimp only at hroom ⊢
  exact ⟨by dsimp only; omega, by dsimp only; omega, hsmall⟩

/-- A placement holds the pixels of the surface that its viewport covers. -/
theorem holds_placement_iff (hx : x < width) (hy : y < height) :
    (placement v width height).Holds x y ↔ Covers v x y := by
  unfold Placement.Holds Covers placement
  dsimp only
  omega

-- ================================================================= putting

/-- A pixel of a placement has a place, and the calculation of it does not
stop. -/
private theorem placeAt_eq (hp : p.Within width height) (hi : i < p.width * p.height) :
    placeAt p i = .ok (p.x + i % p.width, p.y + i / p.width) := by
  obtain ⟨⟨hleft, hright⟩, htop, hbottom⟩ := Placement.holds_place hi
  have hplace := index_lt (Nat.lt_of_lt_of_le hright hp.right)
    (Nat.lt_of_lt_of_le hbottom hp.bottom)
  have hwidth : 0 < p.width := Nat.pos_of_mul_pos_right (Nat.zero_lt_of_lt hi)
  have hrows : height ≤ width * height := Nat.le_mul_of_pos_left height (by have := hp.right; omega)
  have hcount := hp.count_le
  have hsmall := hp.small
  have hhalf : i ≤ Word.maxHalf := by omega
  have hcolumn : p.x + i % p.width ≤ Word.maxHalf := by omega
  have hrow : p.y + i / p.width ≤ Word.maxHalf := by have := hp.bottom; omega
  unfold placeAt
  simp only [Word.lowerHalf_of_le hhalf, Word.rem_of_pos hwidth, Word.div_of_pos hwidth]
  show (Word.addHalf p.x (i % p.width) >>= fun x =>
    Word.addHalf p.y (i / p.width) >>= fun y => pure (x, y)) = _
  rw [Word.addHalf_of_le hcolumn, Word.addHalf_of_le hrow]
  rfl

/-- A pixel is set where there is one. -/
private theorem put_eq {q : Pixel} {pixel : (x y : Nat) → Pixel} (hx : x < width) (hy : y < height)
    : put (.ofFn width height pixel) x y q
      = .ok (.ofFn width height fun a b => if a = x ∧ b = y then q else pixel a b) := by
  refine (if_pos ⟨hx, hy⟩).trans (congrArg Except.ok (Canvas.ext_get? rfl rfl fun a b => ?_))
  rw [Canvas.get?_ofFn]
  by_cases hplace : a < width ∧ b < height
  · have hold := Canvas.get?_ofFn width height pixel a b
    rw [Canvas.get?_inside hplace.1 hplace.2, if_pos hplace] at hold
    have hindex : y * width + x < (Canvas.ofFn width height pixel).pixels.size := by
      rw [Canvas.size_eq]
      exact index_lt hx hy
    rw [if_pos hplace, Canvas.get?_inside hplace.1 hplace.2]
    show ((Canvas.ofFn width height pixel).pixels.setIfInBounds (y * width + x) q)[b * width + a]?
      = _
    rw [Array.getElem?_setIfInBounds, if_pos hindex]
    simp only [index_inj hx hplace.1, eq_comm (a := x), eq_comm (a := y)]
    split_ifs
    · rfl
    · exact hold
  · rw [if_neg hplace, Canvas.get?_outside hplace]

/-- The surface after pixels were put: those of the placement from one index up
to another one, and what was there before. -/
def filledUpTo (p : Placement) (bytes : Array UInt8) (start stop : Nat)
    (pixel : (x y : Nat) → Pixel) (x y : Nat) : Pixel :=
  if p.Holds x y ∧ start ≤ p.index x y ∧ p.index x y < stop then
    (rgbAt bytes (p.index x y)).opaquePixel
  else pixel x y

/-- A step puts one pixel of the placement. -/
theorem putPixels_step {pixel : (x y : Nat) → Pixel} (hp : p.Within width height)
    (hi : i < p.width * p.height) (bytes : Array UInt8) (count : Nat) :
    putPixels p bytes (count + 1) i (.ofFn width height pixel)
      = putPixels p bytes count (i + 1)
          (.ofFn width height (filledUpTo p bytes i (i + 1) pixel)) := by
  have hplace := Placement.holds_place hi
  have hcolumn := Nat.lt_of_lt_of_le hplace.1.2 hp.right
  have hrow := Nat.lt_of_lt_of_le hplace.2.2 hp.bottom
  have hpixel : (fun x y => if x = p.x + i % p.width ∧ y = p.y + i / p.width then
      (rgbAt bytes i).opaquePixel else pixel x y) = filledUpTo p bytes i (i + 1) pixel := by
    funext x y
    unfold filledUpTo
    by_cases hin : p.Holds x y
    · have hindex : (p.Holds x y ∧ i ≤ p.index x y ∧ p.index x y < i + 1) ↔ p.index x y = i := by
        refine ⟨fun h => by omega, fun h => ⟨hin, by omega, by omega⟩⟩
      simp only [Placement.eq_place_iff hin, hindex]
      split_ifs with h
      · rw [h]
      · rfl
    · rw [if_neg, if_neg (fun h => hin h.1)]
      rintro ⟨rfl, rfl⟩
      exact hin hplace
  rw [putPixels, placeAt_eq hp hi]
  show (put (.ofFn width height pixel) (p.x + i % p.width) (p.y + i / p.width)
      (rgbAt bytes i).opaquePixel >>= fun surface => putPixels p bytes count (i + 1) surface) = _
  rw [put_eq hcolumn hrow, hpixel]
  rfl

/-- Filling goes on from where it stopped. -/
private theorem filledUpTo_filledUpTo {pixel : (x y : Nat) → Pixel} {start middle stop : Nat}
    (hstart : start ≤ middle) (hstop : middle ≤ stop) :
    filledUpTo p bytes middle stop (filledUpTo p bytes start middle pixel)
      = filledUpTo p bytes start stop pixel := by
  funext x y
  unfold filledUpTo
  by_cases hin : p.Holds x y
  · simp only [hin, true_and]
    split_ifs <;> first | rfl | omega
  · simp only [hin, false_and, if_false]

/-- All the pixels of a placement have an index that is passed. -/
theorem filledUpTo_all (p : Placement) (bytes : Array UInt8) (pixel : (x y : Nat) → Pixel)
    (x y : Nat) :
    filledUpTo p bytes 0 (p.width * p.height) pixel x y
      = if p.Holds x y then (rgbAt bytes (p.index x y)).opaquePixel else pixel x y := by
  unfold filledUpTo
  by_cases hin : p.Holds x y
  · rw [if_pos hin, if_pos ⟨hin, Nat.zero_le _, Placement.index_lt_of_holds hin⟩]
  · rw [if_neg hin, if_neg (fun h => hin h.1)]

/-- A run puts the pixels whose index it passes. -/
private theorem putPixels_eq {pixel : (x y : Nat) → Pixel} (hp : p.Within width height)
    (bytes : Array UInt8) (count : Nat) (hcount : i + count ≤ p.width * p.height) :
    putPixels p bytes count i (.ofFn width height pixel)
      = .ok (.ofFn width height (filledUpTo p bytes i (i + count) pixel)) := by
  induction count generalizing i pixel with
  | zero =>
      have hnone : filledUpTo p bytes i (i + 0) pixel = pixel := by
        funext x y
        exact if_neg (by omega)
      rw [hnone]
      rfl
  | succ count ih =>
      rw [putPixels_step hp (by omega), ih (by omega),
        filledUpTo_filledUpTo (Nat.le_add_right ..) (by omega), Nat.add_right_comm, Nat.add_assoc]

-- ================================================================ painting

/-- A resizer fills each picture with bytes that depend on the source and the
size alone. -/
structure Resizer.Fills (resizer : Resizer)
    (fill : (source : Bitmap) → (width height : Nat) → Array UInt8) : Prop where
  fills : ∀ source target, 0 < source.width → 0 < source.height → 0 < target.width →
    0 < target.height → target.bytes.size = 3 * (target.width * target.height) →
    resizer source target = some (fill source target.width target.height)
  sized : ∀ source width height, (fill source width height).size = 3 * (width * height)

/-- The surface with bars all over it. -/
def bars (width height : Nat) : Canvas := .ofFn width height fun _ _ => barPixel

theorem mapPixels_barPixel (surface : Canvas) :
    surface.mapPixels (fun _ _ _ => barPixel) = bars surface.width surface.height := by
  refine Canvas.ext_get? rfl rfl fun x y => ?_
  rw [bars, Canvas.get?_mapPixels, Canvas.get?_ofFn]
  by_cases h : x < surface.width ∧ y < surface.height
  · have hindex : y * surface.width + x < surface.pixels.size := surface.size_eq ▸ index_lt h.1 h.2
    rw [if_pos h, Canvas.get?_inside h.1 h.2, Array.getElem?_eq_getElem hindex]
    rfl
  · rw [if_neg h, Canvas.get?_outside h]
    rfl

theorem size_resized (bytes : Array UInt8) (size : Nat) : (resized bytes size).size = size := by
  unfold resized
  rw [Array.size_append, Array.size_extract, Array.size_replicate]
  omega

/-- Too few bytes are no bitmap. -/
private theorem ofBytes?_of_lt (h : bytes.size < 3 * (width * height)) :
    Bitmap.ofBytes? width height bytes = none := dif_neg (Nat.not_le.2 h)

variable {s : Scaler}

/-- The buffer of the scaled frame holds as many bytes as it needs. -/
def targetOf (s : Scaler) (p : Placement) : Bitmap where
  width := p.width
  height := p.height
  bytes := resized s.target (p.width * p.height * 3)
  full := Nat.le_of_eq ((Nat.mul_comm 3 _).trans (size_resized ..).symm)

private theorem ofBytes?_resized (s : Scaler) (p : Placement) :
    Bitmap.ofBytes? p.width p.height (resized s.target (p.width * p.height * 3))
      = some (targetOf s p) := dif_pos (targetOf s p).full

/-- A frame with a full buffer, for a resizer. -/
def Frame.bitmap (f : Frame) (hfull : 3 * (f.width * f.height) ≤ f.rgb.size) : Bitmap :=
  ⟨f.width, f.height, f.rgb, hfull⟩

private theorem ofBytes?_frame (hfull : 3 * (f.width * f.height) ≤ f.rgb.size) :
    Bitmap.ofBytes? f.width f.height f.rgb = some (f.bitmap hfull) := dif_pos hfull

/-- A frame that is too short for its size is not scaled: the buffer is told to
be at fault. -/
private theorem fit_short (hshort : f.rgb.size < 3 * (f.width * f.height)) :
    s.fit resizer p f (p.width * p.height * 3) surface
      = .ok ⟨⟨f.rgb, (targetOf s p).bytes⟩, surface, some .frameBuffer⟩ := by
  unfold Scaler.fit
  dsimp only
  rw [ofBytes?_of_lt hshort]
  rfl

/-- What the resizer fills a buffer with is put onto the surface as a whole. -/
theorem fit_full {pixel : (x y : Nat) → Pixel} (hp : p.Within width height)
    (hfull : 3 * (f.width * f.height) ≤ f.rgb.size)
    (hresized : resizer (f.bitmap hfull) (targetOf s p) = some bytes)
    (hsize : bytes.size = 3 * (p.width * p.height)) :
    s.fit resizer p f (p.width * p.height * 3) (.ofFn width height pixel)
      = .ok ⟨⟨f.rgb, bytes⟩,
          .ofFn width height (filledUpTo p bytes 0 (p.width * p.height) pixel), none⟩ := by
  have hcount : bytes.size / 3 = p.width * p.height := by omega
  have hput : putPixels p bytes (p.width * p.height) 0 (.ofFn width height pixel)
      = .ok (.ofFn width height (filledUpTo p bytes 0 (0 + p.width * p.height) pixel)) :=
    putPixels_eq hp bytes (p.width * p.height) (by omega)
  rw [Nat.zero_add] at hput
  unfold Scaler.fit
  dsimp only
  rw [ofBytes?_frame hfull, ofBytes?_resized]
  dsimp only
  rw [hresized]
  dsimp only
  rw [hcount, hput]
  rfl

/-- Without room for a pixel there are only bars. -/
theorem paint_empty (s : Scaler) (f : Frame)
    (hnone : ¬ (placement v surface.width surface.height).HasRoom) :
    s.paint resizer surface f v = .ok ⟨s, bars surface.width surface.height, none⟩ := by
  unfold Placement.HasRoom at hnone
  unfold Scaler.paint
  rw [mapPixels_barPixel]
  exact if_pos (show (placement v surface.width surface.height).width = 0
    ∨ (placement v surface.width surface.height).height = 0 by omega)

/-- The bytes for a frame are counted without a stop. -/
theorem paint_fit (s : Scaler) (f : Frame)
    (hplaced : placement v surface.width surface.height = p) (hroom : p.HasRoom)
    (hp : p.Within surface.width surface.height) :
    s.paint resizer surface f v
      = s.fit resizer p f (p.width * p.height * 3) (bars surface.width surface.height) := by
  obtain ⟨hwidth, hheight⟩ := hroom
  have hcount := hp.count_le
  have hwords : Word.maxHalf * 3 ≤ maxWord64 := by decide
  have hsmall := hp.small
  unfold Scaler.paint
  rw [mapPixels_barPixel]
  dsimp only
  rw [show placement v (bars surface.width surface.height).width
    (bars surface.width surface.height).height = p from hplaced, if_neg (by omega),
    Word.mul_of_le (by omega)]
  show (Word.mul (p.width * p.height) 3 >>= fun size => s.fit resizer p f size _) = _
  rw [Word.mul_of_le (by omega)]
  rfl

-- ============================================================ what is shown

/-- The surface of a size with the bytes of a scaled frame on its placement. -/
def painted (p : Placement) (bytes : Array UInt8) (width height : Nat) : Canvas :=
  .ofFn width height (filledUpTo p bytes 0 (p.width * p.height) fun _ _ => barPixel)

/-- A painted surface shows the scaled frame in its place and bars around it.
-/
theorem get?_painted (hx : x < width) (hy : y < height) :
    (painted p bytes width height).get? x y
      = some (if p.Holds x y then (rgbAt bytes (p.index x y)).opaquePixel else barPixel) := by
  rw [painted, Canvas.get?_ofFn, if_pos ⟨hx, hy⟩, filledUpTo_all]

private theorem painted_empty (bytes : Array UInt8) (hnone : ¬ p.HasRoom) :
    painted p bytes width height = bars width height := by
  refine congrArg (Canvas.ofFn width height) (funext fun x => funext fun y => ?_)
  rw [filledUpTo_all, if_neg]
  rintro ⟨⟨hleft, hright⟩, htop, hbottom⟩
  exact hnone ⟨by omega, by omega⟩

variable {fill : (source : Bitmap) → (width height : Nat) → Array UInt8}

/-- A frame is shown as its resizer scales it to the placement. -/
private theorem paint_eq (hfills : resizer.Fills fill) (hwidth : 0 < f.width)
    (hheight : 0 < f.height) (hfull : 3 * (f.width * f.height) ≤ f.rgb.size)
    (hplaced : placement v surface.width surface.height = p)
    (hsmall : surface.width * surface.height ≤ Word.maxHalf) (s : Scaler) :
    ∃ after, s.paint resizer surface f v
      = .ok ⟨after, painted p (fill (f.bitmap hfull) p.width p.height) surface.width
          surface.height, none⟩ := by
  by_cases hroom : p.HasRoom
  · have hp := placement_within hplaced hroom hsmall
    have hresized := hfills.fills (f.bitmap hfull) (targetOf s p) hwidth hheight hroom.1 hroom.2
      ((size_resized ..).trans (Nat.mul_comm _ 3))
    exact ⟨_, (paint_fit s f hplaced hroom hp).trans
      (fit_full hp hfull hresized (hfills.sized ..))⟩
  · exact ⟨s, by rw [paint_empty s f (hplaced ▸ hroom), painted_empty _ hroom]⟩

/-- The pixel of a scaled frame that is put at a place of a placement. -/
def Frame.scaledPixel (fill : (source : Bitmap) → (width height : Nat) → Array UInt8) (f : Frame)
    (hfull : 3 * (f.width * f.height) ≤ f.rgb.size) (p : Placement) (x y : Nat) : Pixel :=
  (rgbAt (fill (f.bitmap hfull) p.width p.height) (p.index x y)).opaquePixel

/-- A frame covers the whole of its surface: nothing is put elsewhere, no
calculation stops, and what is shown does not depend on what the surface and
the buffers held. Each pixel that the viewport covers is the one of the scaled
frame there, and each other one is black; all of them are opaque. -/
theorem frames_cover_surfaces (hfills : resizer.Fills fill) (hsmall : width * height < 4294967296)
    (hwidth : 0 < f.width) (hheight : 0 < f.height)
    (hfull : 3 * (f.width * f.height) ≤ f.rgb.size) (v : Viewport Float32) :
    ∃ shown : Canvas, shown.width = width ∧ shown.height = height
      ∧ (∀ (s : Scaler) (surface : Canvas), surface.width = width → surface.height = height →
        ∃ after, s.paint resizer surface f v = .ok ⟨after, shown, none⟩)
      ∧ (∀ x y, x < width → y < height →
        shown.get? x y = some (if Covers v x y then
          f.scaledPixel fill hfull (placement v width height) x y else barPixel))
      ∧ (∀ x y, x < width → y < height → Covers v x y →
        x - (placement v width height).x < (placement v width height).width
          ∧ y - (placement v width height).y < (placement v width height).height)
      ∧ ∀ x y q, shown.get? x y = some q → q.a = 255 := by
  have hcount : width * height ≤ Word.maxHalf := Nat.le_of_lt_succ hsmall
  refine ⟨painted (placement v width height) (fill (f.bitmap hfull) (placement v width height).width
    (placement v width height).height) width height, rfl, rfl, ?_, ?_, ?_, ?_⟩
  · rintro s surface rfl rfl
    exact paint_eq hfills hwidth hheight hfull rfl hcount s
  · intro x y hx hy
    simp only [get?_painted hx hy, holds_placement_iff hx hy, Frame.scaledPixel]
  · intro x y hx hy hcovers
    obtain ⟨⟨hleft, hright⟩, htop, hbottom⟩ := (holds_placement_iff hx hy).2 hcovers
    omega
  · intro x y q hq
    by_cases hplace : x < width ∧ y < height
    · rw [get?_painted hplace.1 hplace.2] at hq
      obtain rfl := Option.some.inj hq
      split_ifs <;> rfl
    · rw [Canvas.get?_outside hplace] at hq
      cases hq

/-- A red and a green pixel. -/
def redGreen : Frame := ⟨2, 1, 1, 1, #[255, 0, 0, 0, 255, 0]⟩

private theorem triangle_fills : Resizer.Fills triangle scaledBytes where
  fills _ _ _ _ _ _ _ := rfl
  sized _ _ _ := Array.size_ofFn

/-- The frame lies in a surface of two rows, one pixel from its left edge. -/
theorem frames_cover_surfaces_of_redGreen :
    ∃ shown : Canvas,
      (∀ (s : Scaler) (surface : Canvas), surface.width = 4 → surface.height = 2 →
        ∃ after, s.paint triangle surface redGreen ⟨1, 1, 0, 2, 1⟩ = .ok ⟨after, shown, none⟩)
      ∧ shown.get? 0 0 = some ⟨0, 0, 0, 255⟩ ∧ shown.get? 1 0 = some ⟨255, 0, 0, 255⟩
      ∧ shown.get? 2 0 = some ⟨0, 255, 0, 255⟩ ∧ shown.get? 2 1 = some ⟨0, 0, 0, 255⟩ := by
  obtain ⟨shown, -, -, hpaint, hpixel, -, -⟩ :=
    frames_cover_surfaces triangle_fills (show 4 * 2 < 4294967296 by decide)
      (show 0 < redGreen.width by decide) (by decide) (by decide) ⟨1, 1, 0, 2, 1⟩
  refine ⟨shown, hpaint, ?_, ?_, ?_, ?_⟩
  · rw [hpixel 0 0 (by decide) (by decide)]
    decide
  · rw [hpixel 1 0 (by decide) (by decide)]
    decide
  · rw [hpixel 2 0 (by decide) (by decide)]
    decide
  · rw [hpixel 2 1 (by decide) (by decide)]
    decide

-- ==================================================== the surface of a tile

private theorem bars_eq_filled (width height : Nat) :
    bars width height = .filled width height barPixel := by
  refine Canvas.ext_get? rfl rfl fun x y => ?_
  rw [bars, Canvas.get?_ofFn, Canvas.get?_filled]

/-- Each byte of a scaled frame is one channel of one scaled pixel. -/
private theorem getD_scaledBytes (source : Bitmap) {k : Nat} (hi : i < width * height) (hk : k < 3)
    : (scaledBytes source width height).getD (3 * i + k) 0
      = channelOf ((scaled source.width source.height source.pixel width height).pixels.getD i
          .clear).rgb k := by
  have hbyte : 3 * i + k < 3 * (width * height) := by omega
  have hpixel : (3 * i + k) / 3 = i := by omega
  have hchannel : (3 * i + k) % 3 = k := by omega
  rw [scaledBytes, Array.getD_eq_getD_getElem?, Array.getElem?_ofFn, dif_pos hbyte]
  dsimp only [Option.getD_some]
  rw [hpixel, hchannel]

private theorem rgbAt_scaledBytes (source : Bitmap) (hi : i < width * height) :
    rgbAt (scaledBytes source width height) i
      = ((scaled source.width source.height source.pixel width height).pixels.getD i
        .clear).rgb := by
  have hred := getD_scaledBytes source hi (show 0 < 3 by decide)
  rw [Nat.add_zero] at hred
  rw [rgbAt, hred, getD_scaledBytes source hi (by decide), getD_scaledBytes source hi (by decide)]
  rfl

/-- The bytes of a scaled picture are its pixels. -/
theorem get?_scaled (source : Bitmap) (hx : x < width) (hy : y < height) :
    (scaled source.width source.height source.pixel width height).get? x y
      = some (rgbAt (scaledBytes source width height) (y * width + x)).opaquePixel := by
  obtain ⟨c, hc⟩ : ∃ c : Rgb, (scaled source.width source.height source.pixel width height).get? x y
      = some c.opaquePixel := ⟨_, (Canvas.get?_ofFn ..).trans (if_pos ⟨hx, hy⟩)⟩
  have hstored :
      (scaled source.width source.height source.pixel width height).pixels[y * width + x]?
        = some c.opaquePixel := (Canvas.get?_inside hx hy).symm.trans hc
  rw [rgbAt_scaledBytes source (index_lt hx hy), Array.getD_eq_getD_getElem?, hc, hstored]
  rfl

private theorem pixel_bitmap (hfull : 3 * (f.width * f.height) ≤ f.rgb.size) :
    (f.bitmap hfull).pixel = f.pixel := by
  funext x y
  unfold Frame.pixel Frame.bitmap Bitmap.pixel
  dsimp only
  by_cases hplace : x < f.width ∧ y < f.height
  · have hindex := index_lt hplace.1 hplace.2
    rw [if_pos hplace, if_pos ⟨hplace.1, hplace.2, by omega⟩, Frame.bytesAt, rgbAt, Nat.mul_comm 3]
  · rw [if_neg hplace, if_neg (fun h => hplace ⟨h.1, h.2.1⟩)]

/-- A scaled frame between its bars is what is painted. -/
private theorem letterboxed_eq (p : Placement) (width height : Nat)
    (hfull : 3 * (f.width * f.height) ≤ f.rgb.size) :
    letterboxed (scaled f.width f.height f.pixel p.width p.height) p width height
      = painted p (scaledBytes (f.bitmap hfull) p.width p.height) width height := by
  rw [letterboxed, painted, ← pixel_bitmap hfull]
  refine congrArg (Canvas.ofFn width height) (funext fun x => funext fun y => ?_)
  rw [filledUpTo_all]
  by_cases hin : p.Holds x y
  · have hcorner : p.x ≤ x ∧ p.y ≤ y := ⟨hin.1.1, hin.2.1⟩
    have hcolumn : x - p.x < p.width := by have := hin.1; omega
    have hrow : y - p.y < p.height := by have := hin.2; omega
    rw [if_pos hcorner, if_pos hin]
    exact congrArg (·.getD barPixel) (get?_scaled (f.bitmap hfull) hcolumn hrow)
  · rw [if_neg hin]
    split_ifs with hcorner
    · rw [Canvas.get?_outside]
      · rfl
      · rintro ⟨hcolumn, hrow⟩
        have hcolumn : x - p.x < p.width := hcolumn
        have hrow : y - p.y < p.height := hrow
        exact hin ⟨by omega, by omega⟩
    · rfl

/-- A frame is amiss when there is room for it and its bytes are too few. -/
theorem Frame.isAmiss_iff :
    f.isAmiss p = true ↔ p.HasRoom ∧ f.rgb.size < 3 * (f.width * f.height) := by
  simp [Frame.isAmiss, Frame.hasPicture, Placement.HasRoom]

/-- A frame that is not amiss is painted scaled to its place. -/
private theorem Frame.paint_full (hplaced : placement v width height = p) (hroom : p.HasRoom)
    (hfull : 3 * (f.width * f.height) ≤ f.rgb.size) :
    f.paint v width height
      = painted p (scaledBytes (f.bitmap hfull) p.width p.height) width height := by
  obtain ⟨hwidth, hheight⟩ := hroom
  have hpicture : f.hasPicture = true := decide_eq_true hfull
  rw [← letterboxed_eq p width height hfull]
  subst hplaced
  refine if_neg ?_
  simp only [hpicture, Bool.not_true, Bool.false_eq_true, or_false]
  omega

/-- Without room or without a picture there are only bars. -/
private theorem Frame.paint_bare (hplaced : placement v width height = p)
    (h : ¬ (p.HasRoom ∧ 3 * (f.width * f.height) ≤ f.rgb.size)) :
    f.paint v width height = bars width height := by
  subst hplaced
  rw [bars_eq_filled]
  refine if_pos ?_
  unfold Placement.HasRoom at h
  simp only [Frame.hasPicture, Bool.not_eq_true', decide_eq_false_iff_not]
  omega

/-- What a scaler shows on a tile is the frame between its bars. -/
theorem paint_triangle (hplaced : placement v surface.width surface.height = p)
    (hsmall : surface.width * surface.height ≤ Word.maxHalf) (s : Scaler) (f : Frame) :
    ∃ after, s.paint triangle surface f v
      = .ok ⟨after, f.paint v surface.width surface.height,
          if f.isAmiss p then some .frameBuffer else none⟩ := by
  simp only [Frame.isAmiss_iff]
  by_cases hroom : p.HasRoom
  case neg =>
    rw [paint_empty s f (hplaced ▸ hroom), Frame.paint_bare hplaced (fun h => hroom h.1),
      if_neg (fun h => hroom h.1)]
    exact ⟨s, rfl⟩
  have hp := placement_within hplaced hroom hsmall
  rw [paint_fit s f hplaced hroom hp]
  by_cases hfull : 3 * (f.width * f.height) ≤ f.rgb.size
  · rw [Frame.paint_full hplaced hroom hfull, if_neg (fun h => absurd h.2 (Nat.not_lt.2 hfull))]
    exact ⟨_, fit_full hp hfull rfl Array.size_ofFn⟩
  · have hshort := Nat.lt_of_not_le hfull
    rw [Frame.paint_bare hplaced (fun h => hfull h.2), if_pos ⟨hroom, hshort⟩, fit_short hshort]
    exact ⟨_, rfl⟩

end VideoWall.Media
