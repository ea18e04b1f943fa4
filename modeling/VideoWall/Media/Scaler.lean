/-
How a frame gets onto the surface of a tile: the whole surface is filled
with the colour of the bars, the frame is scaled in a buffer, and the
buffer is put onto the surface pixel by pixel.

One scaler serves all tiles. Its buffers hold what is left of other frames,
and the surface what was painted last. Places on a surface are half words,
and so are the indices of pixels.
-/
import VideoWall.Media.Letterbox

namespace VideoWall.Media

open VideoWall.Geometry Raster Numeral

-- ============================================================== bitmaps

/-- The colour of a pixel in a buffer with three bytes for each. -/
def rgbAt (bytes : Array UInt8) (i : Nat) : Rgb :=
  ⟨bytes.getD (3 * i) 0, bytes.getD (3 * i + 1) 0, bytes.getD (3 * i + 2) 0⟩

/-- A picture of a size in a buffer that is long enough for it. -/
structure Bitmap where
  width : Nat
  height : Nat
  bytes : Array UInt8
  full : 3 * (width * height) ≤ bytes.size

namespace Bitmap

/-- The bitmap of some bytes, if there are enough of them. -/
def ofBytes? (width height : Nat) (bytes : Array UInt8) : Option Bitmap :=
  if h : 3 * (width * height) ≤ bytes.size then some ⟨width, height, bytes, h⟩ else none

/-- The colour at a place; black outside of the picture. -/
def pixel (b : Bitmap) (x y : Nat) : Rgb :=
  if x < b.width ∧ y < b.height then rgbAt b.bytes (y * b.width + x) else ⟨0, 0, 0⟩

end Bitmap

/-- A channel of a colour by its number. -/
def channelOf (c : Rgb) (k : Nat) : UInt8 := if k = 0 then c.r else if k = 1 then c.g else c.b

/-- What fills the second picture with the first one, scaled to its size:
the bytes that are then in the buffer of the second, if it can. -/
abbrev Resizer := (source target : Bitmap) → Option (Array UInt8)

/-- The bytes of a picture that is scaled to another size, with a triangle
for weights. -/
def scaledBytes (source : Bitmap) (width height : Nat) : Array UInt8 :=
  let picture := scaled source.width source.height source.pixel width height
  Array.ofFn fun i : Fin (3 * (width * height)) =>
    channelOf (picture.pixels.getD (i / 3) .clear).rgb (i % 3)

/-- The resizer with a triangle for weights. -/
def triangle : Resizer := fun source target =>
  some (scaledBytes source target.width target.height)

-- ============================================================== putting

/-- Sets a pixel of a surface. There has to be one. -/
def put (surface : Canvas) (x y : Nat) (p : Pixel) : Word.Checked Canvas :=
  if x < surface.width ∧ y < surface.height then
    .ok { surface with
          pixels := surface.pixels.setIfInBounds (y * surface.width + x) p
          size_eq := by rw [Array.size_setIfInBounds, surface.size_eq] }
  else .error .outOfRange

/-- Where the pixel of an index is put. -/
def placeAt (p : Placement) (i : Nat) : Word.Checked (Nat × Nat) := do
  let i := Word.lowerHalf i
  let x ← Word.addHalf p.x (← Word.rem i p.width)
  let y ← Word.addHalf p.y (← Word.div i p.width)
  pure (x, y)

/-- Puts `count` pixels of a buffer onto a surface, from index `i` on. -/
def putPixels (p : Placement) (bytes : Array UInt8) :
    (count i : Nat) → Canvas → Word.Checked Canvas
  | 0, _, surface => pure surface
  | count + 1, i, surface => do
      let (x, y) ← placeAt p i
      let surface ← put surface x y (rgbAt bytes i).opaquePixel
      putPixels p bytes count (i + 1) surface

-- ============================================================= painting

/-- The buffers of a scaler: the frame, and the frame at its new size. -/
structure Scaler where
  source : Array UInt8 := #[]
  target : Array UInt8 := #[]

/-- Why a frame is not shown. -/
inductive PaintError where
  | frameBuffer
  | tileBuffer
  | resize
  deriving DecidableEq, Repr

/-- What is said of a picture that could not be painted. -/
def PaintError.message : PaintError → String
  | .frameBuffer => shortBuffer
  | .tileBuffer => "failed preparing tile buffer"
  | .resize => "frame resize failed"

/-- A scaler and a surface after a frame was painted, and why it is not
shown, if it is not. -/
structure Painted where
  scaler : Scaler
  surface : Canvas
  error : Option PaintError := none

/-- A buffer of another length: cut off, or with noughts at its end. -/
def resized (bytes : Array UInt8) (size : Nat) : Array UInt8 :=
  bytes.extract 0 size ++ Array.replicate (size - bytes.size) 0

/-- Scales a frame to a placement of pixels, with `size` bytes for it, and puts
it there. -/
def Scaler.fit (resizer : Resizer) (s : Scaler) (p : Placement) (f : Frame) (size : Nat)
    (surface : Canvas) : Word.Checked Painted :=
  let s : Scaler := ⟨f.rgb, resized s.target size⟩
  match Bitmap.ofBytes? f.width f.height s.source with
  | none => pure ⟨s, surface, some .frameBuffer⟩
  | some source =>
      match Bitmap.ofBytes? p.width p.height s.target with
      | none => pure ⟨s, surface, some .tileBuffer⟩
      | some target =>
          match resizer source target with
          | none => pure ⟨s, surface, some .resize⟩
          | some bytes => do
              let surface ← putPixels p bytes (bytes.size / 3) 0 surface
              pure ⟨{ s with target := bytes }, surface, none⟩

/-- Paints a frame onto a surface, with bars around it. -/
def Scaler.paint (resizer : Resizer) (s : Scaler) (surface : Canvas) (f : Frame)
    (v : Viewport Float32) : Word.Checked Painted := do
  let surface := surface.mapPixels fun _ _ _ => barPixel
  let p := placement v surface.width surface.height
  if p.width = 0 ∨ p.height = 0 then pure ⟨s, surface, none⟩
  else
    let size ← Word.mul (← Word.mul p.width p.height) 3
    s.fit resizer p f size surface

end VideoWall.Media
