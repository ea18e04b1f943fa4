/-
Frames on the tiles of the wall: scaled into the area that is meant for
them, with black bars around it. What a surface showed before does not
matter.
-/
import VideoWall.Geometry.Viewport
import VideoWall.Media.Frame
import VideoWall.Numeral.Word
import VideoWall.Raster.Scaling

namespace VideoWall.Media

open VideoWall.Geometry Raster

/-- The pixels of a surface that a frame covers. -/
structure Placement where
  x : Nat
  y : Nat
  width : Nat
  height : Nat
  deriving DecidableEq, Repr

/-- The natural number nearest to `m * 2 ^ e`, halves up. -/
def nearestWhole (m : Nat) (e : Int) : Nat :=
  let (num, den) := Numeral.Format.scale m 1 e
  (2 * num + den) / (2 * den)

/-- A whole number of pixels, at most a half word: the nearest one, none
for a place before the edge or for no place at all. -/
def wholePixels (x : Float32) : Nat :=
  match Numeral.readSingle x with
  | .nan => 0
  | .infinite negative => if negative then 0 else Numeral.Word.maxHalf
  | .finite negative m e => if negative then 0 else min (nearestWhole m e) Numeral.Word.maxHalf

/-- The pixels of a surface that a viewport covers. What sticks out of
the surface is cut off. -/
def placement (v : Viewport Float32) (width height : Nat) : Placement :=
  let x := wholePixels v.offsetX
  let y := wholePixels v.offsetY
  { x, y
    width := min (wholePixels (v.offsetX + v.drawWidth)) width - x
    height := min (wholePixels (v.offsetY + v.drawHeight)) height - y }

/-- The black of the bars. -/
def barPixel : Pixel := ⟨0, 0, 0, 255⟩

/-- What is said about a frame whose buffer is too short. -/
def shortBuffer : String := "frame buffer does not match its dimensions"

/-- A picture with bars around it on a surface of a size. -/
def letterboxed (picture : Canvas) (p : Placement) (width height : Nat) : Canvas :=
  Canvas.ofFn width height fun x y =>
    if p.x ≤ x ∧ p.y ≤ y then (picture.get? (x - p.x) (y - p.y)).getD barPixel else barPixel

/-- Whether a frame cannot be shown: there are pixels for it, and it has
none. -/
def Frame.isAmiss (f : Frame) (p : Placement) : Bool :=
  0 < p.width && 0 < p.height && !f.hasPicture

/-- A frame on a surface of a size; only the bars if it cannot be shown. -/
def Frame.paint (f : Frame) (v : Viewport Float32) (width height : Nat) : Canvas :=
  let p := placement v width height
  if p.width = 0 ∨ p.height = 0 ∨ !f.hasPicture then Canvas.filled width height barPixel
  else letterboxed (scaled f.width f.height f.pixel p.width p.height) p width height

end VideoWall.Media
