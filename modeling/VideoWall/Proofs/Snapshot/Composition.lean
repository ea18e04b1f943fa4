/-
What a snapshot shows: the frame in its native size, and the boxes and
labels of the detections over it.

# When there is none

A frame without a size is as good as no frame, and a frame whose buffer is
too short has no picture. These two and the limits of file formats are all
that can go wrong (`capture_shows`).

# What there is

Wherever nothing is drawn a picture has the frame's own bytes, three for
each pixel, row by row (`Shows`). They are really there, so no place is
black for want of bytes, and what follows them in the buffer does not
matter (`compose_append`). Everywhere else it has the colour of what was
drawn last.
-/
import VideoWall.Proofs.Overlay.Painting
import VideoWall.Snapshot.Basic

namespace VideoWall

-- ============================================================== frames

namespace Media.Frame

open Raster

variable {f : Frame} {x y : Nat}

/-- The bytes that a picture of a frame needs. -/
def needed (f : Frame) : Nat := 3 * f.width * f.height

/-- A frame has a picture when it has enough bytes. -/
theorem hasPicture_iff : f.hasPicture = true ↔ f.needed ≤ f.rgb.size := by
  unfold hasPicture needed
  rw [decide_eq_true_iff, Nat.mul_assoc]

/-- In a buffer that is long enough every place of the frame has its three
bytes. -/
theorem index_inside (hfull : f.needed ≤ f.rgb.size) (hx : x < f.width) (hy : y < f.height) :
    (y * f.width + x) * 3 + 3 ≤ f.rgb.size := by
  have hindex := index_lt hx hy
  unfold needed at hfull
  rw [Nat.mul_assoc] at hfull
  omega

/-- A pixel of a full frame is three of its bytes. -/
theorem pixel_inside (hfull : f.needed ≤ f.rgb.size) (hx : x < f.width) (hy : y < f.height) :
    f.pixel x y = f.bytesAt ((y * f.width + x) * 3) :=
  if_pos ⟨hx, hy, index_inside hfull hx hy⟩

/-- A frame whose buffer goes on. -/
def extended (f : Frame) (more : Array UInt8) : Frame := { f with rgb := f.rgb ++ more }

/-- More bytes behind change no byte. -/
private theorem bytesAt_extended (more : Array UInt8) {i : Nat} (hi : i + 3 ≤ f.rgb.size) :
    (f.extended more).bytesAt i = f.bytesAt i := by
  have hbyte : ∀ j < f.rgb.size, (f.rgb ++ more).getD j 0 = f.rgb.getD j 0 := by
    intro j hj
    rw [Array.getD_eq_getD_getElem?, Array.getD_eq_getD_getElem?, Array.getElem?_append_left hj]
  show Rgb.mk ((f.rgb ++ more).getD i 0) ((f.rgb ++ more).getD (i + 1) 0)
      ((f.rgb ++ more).getD (i + 2) 0) = f.bytesAt i
  rw [hbyte i (by omega), hbyte (i + 1) (by omega), hbyte (i + 2) (by omega)]
  rfl

private theorem needed_extended (hfull : f.needed ≤ f.rgb.size) (more : Array UInt8) :
    (f.extended more).needed ≤ (f.extended more).rgb.size := by
  show f.needed ≤ (f.rgb ++ more).size
  rw [Array.size_append]
  omega

/-- The surface of a frame is all of its pixels. -/
theorem toCanvas?_full (hfull : f.needed ≤ f.rgb.size) :
    f.toCanvas? = some (.ofFn f.width f.height fun x y => (f.pixel x y).opaquePixel) :=
  if_pos (hasPicture_iff.2 hfull)

private theorem toCanvas?_short (hshort : f.rgb.size < f.needed) : f.toCanvas? = none := by
  refine if_neg ?_
  rw [hasPicture_iff]
  omega

/-- More bytes behind change no picture. -/
private theorem toCanvas?_extended (hfull : f.needed ≤ f.rgb.size) (more : Array UInt8) :
    (f.extended more).toCanvas? = f.toCanvas? := by
  rw [toCanvas?_full hfull, toCanvas?_full (needed_extended hfull more)]
  refine congrArg some (Canvas.ext_get? rfl rfl fun x y => ?_)
  rw [Canvas.get?_ofFn, Canvas.get?_ofFn]
  by_cases h : x < f.width ∧ y < f.height
  · have hbytes := bytesAt_extended more (index_inside hfull h.1 h.2)
    rw [if_pos h, if_pos (show x < (f.extended more).width ∧ y < (f.extended more).height from h),
      pixel_inside hfull h.1 h.2, pixel_inside (needed_extended hfull more) h.1 h.2, ← hbytes]
    rfl
  · rw [if_neg h]
    exact if_neg h

end Media.Frame

namespace Snapshot

open VideoWall.Geometry Media Raster Recorder Overlay

variable {renderer : Renderer} {stream : String} {f : Frame} {detections : List Detection}

-- =========================================================== composing

/-- A picture shows a frame below marks: a place outside of all marks has
the frame's colour, one inside has that of the last mark over it, and the
colours of marks are those of strokes and of backgrounds of labels. -/
structure Shows (renderer : Renderer) (f : Frame) (ms : List Mark) (picture : Canvas) : Prop where
  width : picture.width = f.width
  height : picture.height = f.height
  outside : ∀ x y, x < f.width → y < f.height → (∀ m ∈ ms, m.rect.holds x y = false) →
    picture.get? x y = some (f.pixel x y).opaquePixel
  inside : ∀ x y before m after, x < f.width → y < f.height → ms = before ++ m :: after →
    m.rect.holds x y = true → (∀ n ∈ after, n.rect.holds x y = false) →
    picture.get? x y = some m.pixel
  colours : ∀ m ∈ ms, m.pixel = renderer.colors.stroke.opaquePixel
    ∨ m.pixel = renderer.colors.labelBackground.opaquePixel
  bytes : ∀ x y, x < f.width → y < f.height →
    (y * f.width + x) * 3 + 3 ≤ f.rgb.size ∧ f.pixel x y = f.bytesAt ((y * f.width + x) * 3)

/-- Detections drawn on the surface of a frame are shown. -/
private theorem shows_draw (hfull : f.needed ≤ f.rgb.size) (viewport : Viewport Float32) :
    Shows renderer f (allMarks renderer viewport f.width f.height detections)
      (draw renderer (.ofFn f.width f.height fun x y => (f.pixel x y).opaquePixel) viewport
        detections) := by
  have hpixel : ∀ x y, x < f.width → y < f.height →
      (paint (.ofFn f.width f.height fun x y => (f.pixel x y).opaquePixel)
        (allMarks renderer viewport f.width f.height detections)).get? x y
        = some (((topMark? (allMarks renderer viewport f.width f.height detections) x y).map
            (·.pixel)).getD (f.pixel x y).opaquePixel) := by
    intro x y hx hy
    rw [get?_paint, Canvas.get?_ofFn, if_pos ⟨hx, hy⟩]
    rfl
  refine ⟨width_paint _ _, height_paint _ _, ?_, ?_, fun m hm => pixel_of_mem_allMarks hm, ?_⟩
  · intro x y hx hy hnone
    refine (hpixel x y hx hy).trans ?_
    rw [topMark?_eq_none_iff.2 hnone]
    rfl
  · intro x y before m after hx hy hms hholds hafter
    refine (hpixel x y hx hy).trans ?_
    rw [topMark?_eq_some_iff.2 ⟨hholds, before, after, hms, hafter⟩]
    rfl
  · intro x y hx hy
    exact ⟨Frame.index_inside hfull hx hy, Frame.pixel_inside hfull hx hy⟩

private theorem nativeViewport?_flat {width height : Nat} (h : width = 0 ∨ height = 0) :
    nativeViewport? width height = (none : Option (Viewport Float32)) := if_pos h

/-- A frame without an area is not ready. -/
theorem compose_flat (h : f.width = 0 ∨ f.height = 0) :
    compose renderer stream f detections = .error (.notReady stream) := by
  unfold compose
  rw [nativeViewport?_flat h]

/-- The place of a frame of some size on its own picture. -/
theorem exists_nativeViewport (hwidth : 0 < f.width) (hheight : 0 < f.height) :
    ∃ viewport : Viewport Float32, nativeViewport? f.width f.height = some viewport :=
  ⟨_, if_neg (by omega)⟩

/-- A frame with too few bytes is a bad frame. -/
theorem compose_short (hwidth : 0 < f.width) (hheight : 0 < f.height)
    (hshort : f.rgb.size < f.needed) :
    compose renderer stream f detections = .error (.badFrame f.width f.height) := by
  obtain ⟨viewport, hviewport⟩ := exists_nativeViewport hwidth hheight
  unfold compose
  rw [hviewport, Frame.toCanvas?_short hshort]

/-- A full frame is drawn on. -/
theorem compose_full {viewport : Viewport Float32}
    (hviewport : nativeViewport? f.width f.height = some viewport)
    (hfull : f.needed ≤ f.rgb.size) :
    compose renderer stream f detections
      = .ok (draw renderer (.ofFn f.width f.height fun x y => (f.pixel x y).opaquePixel) viewport
          detections) := by
  unfold compose
  rw [hviewport, Frame.toCanvas?_full hfull]

/-- Bytes that follow a picture do not matter. -/
theorem compose_append (hfull : f.needed ≤ f.rgb.size) (more : Array UInt8) :
    compose renderer stream (f.extended more) detections
      = compose renderer stream f detections := by
  unfold compose
  rw [Frame.toCanvas?_extended hfull more]
  rfl

-- =========================================================== capturing

variable {element : Element} {format : Format} {instant : Int}

/-- Without a frame nothing is captured. -/
theorem capture_none (h : element.frame = none) :
    capture renderer stream element detections format instant = .error (.notReady stream) := by
  unfold capture
  rw [h]

/-- A capture fails as the composition does. -/
theorem capture_error (h : element.frame = some f) {e : Failure}
    (hcompose : compose renderer stream f detections = .error e) :
    capture renderer stream element detections format instant = .error e := by
  unfold capture
  rw [h]
  dsimp only
  rw [hcompose]
  rfl

/-- A composition that the format holds is captured. -/
theorem capture_ok (h : element.frame = some f) {picture : Canvas}
    (hcompose : compose renderer stream f detections = .ok picture) :
    capture renderer stream element detections format instant
      = if format.holds picture then .ok ⟨fileName stream instant format, format, picture⟩
        else .error .tooLarge := by
  unfold capture
  rw [h]
  dsimp only
  rw [hcompose]
  rfl

/-- A picture is a snapshot or too large for the format. -/
theorem capture_ne (h : element.frame = some f) {picture : Canvas}
    (hcompose : compose renderer stream f detections = .ok picture) {e : Failure}
    (he : e ≠ .tooLarge) :
    capture renderer stream element detections format instant ≠ .error e := by
  rw [capture_ok h hcompose]
  split
  · exact fun heq => nomatch heq
  · exact fun heq => he (Except.error.inj heq).symm

/-- What comes of a frame of some size: a picture, or the buffer is too
short. -/
theorem compose_sized (hwidth : 0 < f.width) (hheight : 0 < f.height) :
    (f.rgb.size < f.needed
        ∧ compose renderer stream f detections = .error (.badFrame f.width f.height))
      ∨ f.needed ≤ f.rgb.size ∧ ∃ picture, compose renderer stream f detections = .ok picture := by
  rcases Nat.lt_or_ge f.rgb.size f.needed with hshort | hfull
  · exact Or.inl ⟨hshort, compose_short hwidth hheight hshort⟩
  · obtain ⟨viewport, hviewport⟩ := exists_nativeViewport hwidth hheight
    exact Or.inr ⟨hfull, _, compose_full hviewport hfull⟩

/-- A capture is not ready exactly while there is no frame with an area. -/
theorem capture_notReady_iff :
    capture renderer stream element detections format instant = .error (.notReady stream)
      ↔ ∀ f, element.frame = some f → f.width = 0 ∨ f.height = 0 := by
  constructor
  · intro hcapture f hf
    refine Classical.byContradiction fun hsized => ?_
    rcases compose_sized (f := f) (by omega) (by omega) with ⟨-, hcompose⟩ | ⟨-, picture, hcompose⟩
    · rw [capture_error hf hcompose] at hcapture
      cases hcapture
    · exact capture_ne hf hcompose (by simp) hcapture
  · intro hflat
    cases hf : element.frame with
    | none => exact capture_none hf
    | some f => exact capture_error hf (compose_flat (hflat f hf))

/-- A capture is refused exactly when a frame with an area has too few bytes.
-/
theorem capture_badFrame_iff {width height : Nat} :
    capture renderer stream element detections format instant = .error (.badFrame width height)
      ↔ ∃ f, element.frame = some f ∧ f.width = width ∧ f.height = height
          ∧ 0 < width ∧ 0 < height ∧ f.rgb.size < 3 * width * height := by
  constructor
  · intro hcapture
    cases hf : element.frame with
    | none =>
        rw [capture_none hf] at hcapture
        cases hcapture
    | some f =>
        by_cases hflat : f.width = 0 ∨ f.height = 0
        · rw [capture_error hf (compose_flat hflat)] at hcapture
          cases hcapture
        · rcases compose_sized (f := f) (by omega) (by omega) with
            ⟨hshort, hcompose⟩ | ⟨-, picture, hcompose⟩
          · rw [capture_error hf hcompose] at hcapture
            cases hcapture
            exact ⟨f, rfl, rfl, rfl, by omega, by omega, hshort⟩
          · exact absurd hcapture (capture_ne hf hcompose (by simp))
  · rintro ⟨f, hf, rfl, rfl, hwidth, hheight, hshort⟩
    exact capture_error hf (compose_short hwidth hheight hshort)

/-- There is no snapshot of an element without a frame or with one that has
no size, nor of a frame whose buffer is too short; of every other frame the
picture has the native size and shows the frame below its boxes and labels,
whatever follows in the buffer. It is a snapshot if the format can hold
it. -/
theorem capture_shows (renderer : Renderer) (stream : String) (element : Element)
    (detections : List Detection) (format : Format) (instant : Int) :
    (capture renderer stream element detections format instant = .error (.notReady stream)
      ↔ ∀ f, element.frame = some f → f.width = 0 ∨ f.height = 0)
    ∧ (∀ width height,
        capture renderer stream element detections format instant = .error (.badFrame width height)
          ↔ ∃ f, element.frame = some f ∧ f.width = width ∧ f.height = height
              ∧ 0 < width ∧ 0 < height ∧ f.rgb.size < 3 * width * height)
    ∧ ∀ f, element.frame = some f → 0 < f.width → 0 < f.height →
        3 * f.width * f.height ≤ f.rgb.size →
        ∃ viewport picture, nativeViewport? f.width f.height = some viewport
          ∧ Shows renderer f (allMarks renderer viewport f.width f.height detections) picture
          ∧ compose renderer stream f detections = .ok picture
          ∧ (∀ more, compose renderer stream (f.extended more) detections = .ok picture)
          ∧ capture renderer stream element detections format instant
              = if format.holds picture then .ok ⟨fileName stream instant format, format, picture⟩
                else .error .tooLarge := by
  refine ⟨capture_notReady_iff, fun width height => capture_badFrame_iff, ?_⟩
  intro f hf hwidth hheight hfull
  obtain ⟨viewport, hviewport⟩ := exists_nativeViewport hwidth hheight
  have hcompose : compose renderer stream f detections = .ok _ := compose_full hviewport hfull
  exact ⟨viewport, _, hviewport, shows_draw hfull viewport, hcompose,
    fun more => (compose_append hfull more).trans hcompose, capture_ok hf hcompose⟩

/-- Two pixels and a byte too many. -/
def twoPixels : Frame := ⟨2, 1, 1, 1, #[1, 2, 3, 4, 5, 6, 7]⟩

/-- Two pixels and a byte too few. -/
def cutShort : Frame := ⟨2, 1, 1, 1, #[1, 2, 3, 4, 5]⟩

/-- An element that shows a frame. -/
def showing (f : Frame) : Element := { Element.idle with frame := some f }

theorem capture_shows_two_pixels :
    ((showing twoPixels).frame = some twoPixels ∧ 0 < twoPixels.width ∧ 0 < twoPixels.height
      ∧ 3 * twoPixels.width * twoPixels.height ≤ twoPixels.rgb.size)
    ∧ (∃ viewport picture, nativeViewport? 2 1 = some viewport
      ∧ Shows default twoPixels (allMarks default viewport 2 1 [default]) picture
      ∧ compose default "gate" twoPixels [default] = .ok picture
      ∧ capture default "gate" (showing twoPixels) [default] .png 0
          = .ok ⟨fileName "gate" 0 .png, .png, picture⟩)
    ∧ (∃ picture, compose default "gate" twoPixels [] = .ok picture
      ∧ picture.get? 1 0 = some ⟨4, 5, 6, 255⟩)
    ∧ capture default "gate" (showing cutShort) [default] .png 0 = .error (.badFrame 2 1)
    ∧ capture default "gate" .idle [default] .png 0 = .error (.notReady "gate") := by
  have hbytes : 3 * twoPixels.width * twoPixels.height ≤ twoPixels.rgb.size := by decide
  obtain ⟨viewport, picture, hviewport, hshows, hcompose, -, hcapture⟩ :=
    (capture_shows default "gate" (showing twoPixels) [default] .png 0).2.2 twoPixels rfl
      (by decide) (by decide) hbytes
  obtain ⟨viewport', bare, -, hbare, hbareCompose, -, -⟩ :=
    (capture_shows default "gate" (showing twoPixels) [] .png 0).2.2 twoPixels rfl
      (by decide) (by decide) hbytes
  refine ⟨⟨rfl, by decide, by decide, hbytes⟩, ⟨viewport, picture, hviewport, hshows, hcompose,
    hcapture⟩, ⟨bare, hbareCompose, ?_⟩, ?_, ?_⟩
  · exact hbare.outside 1 0 (by decide) (by decide) fun m hm => nomatch hm
  · exact ((capture_shows default "gate" (showing cutShort) [default] .png 0).2.1 2 1).2
      ⟨cutShort, rfl, rfl, rfl, by decide, by decide, by decide⟩
  · exact (capture_shows default "gate" .idle [default] .png 0).1.2 fun f hf => nomatch hf

end Snapshot

end VideoWall
