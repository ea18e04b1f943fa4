/-
Scaling pictures, one direction after the other. Each pixel of the result
is the mean of the pixels around its place in the source, weighted by a
triangle that reaches one pixel of the coarser side to both sides. So a
picture of a single colour stays one, and a picture that keeps its size
stays as it is.

All of it is exact: places are taken in units of half a pixel of the
source over the length of the result, which makes every weight a whole
number.
-/
import VideoWall.Raster.Canvas

namespace VideoWall.Raster

/-- How far apart two numbers are. -/
def gap (a b : Nat) : Nat := (a - b) + (b - a)

/-- The weight of source pixel `i` for pixel `o` of the result, when
`source` pixels are scaled to `target`. -/
def weight (source target i o : Nat) : Nat :=
  2 * max source target - gap ((2 * i + 1) * target) ((2 * o + 1) * source)

/-- The first source pixel that may have a weight for pixel `o`. -/
def firstTap (source target o : Nat) : Nat :=
  ((2 * o + 1) * source - 2 * max source target) / (2 * target)

/-- The first source pixel after those that may have a weight. -/
def lastTap (source target o : Nat) : Nat :=
  min source (((2 * o + 1) * source + 2 * max source target) / (2 * target) + 1)

/-- Weighted sums of the three channels, and the sum of the weights. -/
structure Mixture where
  r : Nat := 0
  g : Nat := 0
  b : Nat := 0
  total : Nat := 0

namespace Mixture

/-- Adds a colour of a weight. -/
def add (m : Mixture) (c : Rgb) (w : Nat) : Mixture :=
  ⟨m.r + w * c.r.toNat, m.g + w * c.g.toNat, m.b + w * c.b.toNat, m.total + w⟩

/-- The mean, rounded to the nearest level. -/
def mean (m : Mixture) : Rgb :=
  let level (sum : Nat) : UInt8 := ((2 * sum + m.total) / (2 * m.total)).toUInt8
  ⟨level m.r, level m.g, level m.b⟩

end Mixture

/-- Pixel `o` of a row of `source` pixels scaled to `target`. -/
def resample (source target : Nat) (row : Nat → Rgb) (o : Nat) : Rgb :=
  let first := firstTap source target o
  let count := lastTap source target o - first
  (Nat.fold count (fun k _ m =>
    let i := first + k
    m.add (row i) (weight source target i o)) ({} : Mixture)).mean

/-- A picture of a size, scaled to another: first along its rows, then
along its columns. -/
def scaled (width height : Nat) (pixel : (x y : Nat) → Rgb) (newWidth newHeight : Nat) : Canvas :=
  let squeezed := Array.ofFn fun i : Fin (newWidth * height) =>
    resample width newWidth (fun x => pixel x (i / newWidth)) (i % newWidth)
  Canvas.ofFn newWidth newHeight fun x y =>
    (resample height newHeight (fun row => squeezed.getD (row * newWidth + x) ⟨0, 0, 0⟩) y).opaquePixel

end VideoWall.Raster
