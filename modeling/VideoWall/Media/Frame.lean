/-
Decoded frames: three bytes for each pixel, row by row. The buffer of a
frame may be longer than its size needs; the rest is ignored. A buffer
that is too short has no picture.
-/
import VideoWall.Raster.Canvas

namespace VideoWall.Media

open Raster

/-- A decoded frame at the size of its stream. `seq` counts the frames
of an element and `epoch` is the attach that the frame was decoded for. -/
structure Frame where
  width : Nat
  height : Nat
  seq : Nat
  epoch : Nat
  rgb : Array UInt8
  deriving DecidableEq, Inhabited

namespace Frame

/-- The three bytes at an index of the buffer. -/
def bytesAt (f : Frame) (i : Nat) : Rgb :=
  ⟨f.rgb.getD i 0, f.rgb.getD (i + 1) 0, f.rgb.getD (i + 2) 0⟩

/-- The colour at a place; black outside of the frame and where the
buffer has ended. -/
def pixel (f : Frame) (x y : Nat) : Rgb :=
  let i := (y * f.width + x) * 3
  if x < f.width ∧ y < f.height ∧ i + 3 ≤ f.rgb.size then f.bytesAt i else ⟨0, 0, 0⟩

/-- Whether there are bytes for every pixel. -/
def hasPicture (f : Frame) : Bool := 3 * (f.width * f.height) ≤ f.rgb.size

/-- The frame as an opaque surface. -/
def toCanvas? (f : Frame) : Option Canvas :=
  if f.hasPicture then
    some (Canvas.ofFn f.width f.height fun x y => (f.pixel x y).opaquePixel)
  else none

end Frame

end VideoWall.Media
