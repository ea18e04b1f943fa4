/-
Pixel surfaces: a width, a height and one pixel for each place, row by
row. The view of a canvas is `get`; every operation on it is a lemma
about `get`, and the size never changes.
-/
import VideoWall.Geometry.Scalar

namespace VideoWall.Raster

/-- A colour without transparency. -/
structure Rgb where
  r : UInt8
  g : UInt8
  b : UInt8
  deriving DecidableEq, Repr, Inhabited

/-- A pixel: a colour and how much it covers. -/
structure Pixel where
  r : UInt8
  g : UInt8
  b : UInt8
  a : UInt8
  deriving DecidableEq, Repr, Inhabited

/-- The pixel that covers nothing. -/
def Pixel.clear : Pixel := ⟨0, 0, 0, 0⟩

/-- A colour without transparency. -/
def Rgb.opaquePixel (c : Rgb) : Pixel := ⟨c.r, c.g, c.b, 255⟩

/-- The colour of a pixel, whatever its transparency. -/
def Pixel.rgb (p : Pixel) : Rgb := ⟨p.r, p.g, p.b⟩

/-- A surface of pixels. -/
structure Canvas where
  width : Nat
  height : Nat
  pixels : Array Pixel
  size_eq : pixels.size = width * height

namespace Canvas

/-- A canvas of one pixel all over. -/
def filled (width height : Nat) (p : Pixel) : Canvas :=
  ⟨width, height, Array.replicate (width * height) p, by simp⟩

/-- A canvas on which nothing has been painted. -/
def blank (width height : Nat) : Canvas := filled width height .clear

/-- A surface whose pixels are given by a function of the place. -/
def ofFn (width height : Nat) (f : (x y : Nat) → Pixel) : Canvas :=
  ⟨width, height, Array.ofFn fun i : Fin (width * height) => f (i % width) (i / width),
    by simp⟩

/-- The pixel at a place; there is none outside of the surface. -/
def get? (c : Canvas) (x y : Nat) : Option Pixel :=
  if x < c.width ∧ y < c.height then c.pixels[y * c.width + x]? else none

/-- The pixel at a place, clear outside of the surface. -/
def get (c : Canvas) (x y : Nat) : Pixel := (c.get? x y).getD .clear

/-- Changes every pixel by a function of its place. -/
def mapPixels (c : Canvas) (f : (x y : Nat) → Pixel → Pixel) : Canvas :=
  ⟨c.width, c.height, c.pixels.mapIdx fun i p => f (i % c.width) (i / c.width) p,
    by simp [c.size_eq]⟩

/-- A canvas of the same size on which nothing has been painted. -/
def cleared (c : Canvas) : Canvas := blank c.width c.height

end Canvas

-- ======================================================== rectangles

/-- A rectangle of whole pixels, which may lie outside of a surface. -/
structure Rect where
  x : Int
  y : Int
  width : Int
  height : Int
  deriving DecidableEq, Repr, Inhabited

/-- Whether a place lies in a rectangle. -/
def Rect.holds (r : Rect) (x y : Int) : Bool :=
  r.x ≤ x && x < r.x + r.width && r.y ≤ y && y < r.y + r.height

/-- Puts `p` at `count` places from `start` on. -/
def fillSpan (p : Pixel) : (count start : Nat) → Array Pixel → Array Pixel
  | 0, _, pixels => pixels
  | count + 1, start, pixels =>
      fillSpan p count (start + 1) (pixels.setIfInBounds start p)

/-- Filling a span keeps the size. -/
theorem size_fillSpan (p : Pixel) (count start : Nat) (pixels : Array Pixel) :
    (fillSpan p count start pixels).size = pixels.size := by
  induction count generalizing start pixels with
  | zero => rfl
  | succ n ih => simp [fillSpan, ih]

/-- Puts `p` at `count` places of each of `rows` rows; the first span
begins at `start` and the rows are `stride` places apart. -/
def fillRows (p : Pixel) (count stride : Nat) : (rows start : Nat) → Array Pixel → Array Pixel
  | 0, _, pixels => pixels
  | rows + 1, start, pixels =>
      fillRows p count stride rows (start + stride) (fillSpan p count start pixels)

/-- Filling rows keeps the size. -/
theorem size_fillRows (p : Pixel) (count stride rows start : Nat) (pixels : Array Pixel) :
    (fillRows p count stride rows start pixels).size = pixels.size := by
  induction rows generalizing start pixels with
  | zero => rfl
  | succ n ih => simp [fillRows, ih, size_fillSpan]

/-- Fills the part of a rectangle that lies on the surface. -/
def Canvas.fill (c : Canvas) (r : Rect) (p : Pixel) : Canvas :=
  let left := max r.x 0
  let top := max r.y 0
  let right := min (r.x + r.width) c.width
  let bottom := min (r.y + r.height) c.height
  if left < right ∧ top < bottom then
    { c with
      pixels := fillRows p (right - left).toNat c.width (bottom - top).toNat
        (top.toNat * c.width + left.toNat) c.pixels
      size_eq := by rw [size_fillRows, c.size_eq] }
  else c

end VideoWall.Raster
