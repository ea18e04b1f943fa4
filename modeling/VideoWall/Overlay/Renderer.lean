/-
Drawing detections. A detection becomes a short list of filled
rectangles: four strokes along the edges of its box and a background for
its label, above the box where there is room and inside its upper edge
otherwise. Drawing is filling these rectangles in order, later ones over
earlier ones. The ink of a label has the colour of its background.

A label is its words in a font made for screens. Its width is summed glyph by
glyph in single precision, as a caret moves.
-/
import VideoWall.Geometry.Scalar
import VideoWall.Raster.Canvas
import VideoWall.Recorder.Detection
import VideoWall.Text.Blank

namespace VideoWall.Overlay

open VideoWall.Geometry Raster Recorder

-- ============================================================= labels

/-- The confidence as a whole percentage; a NaN is nought. -/
def percent (confidence : Float32) : Nat :=
  (round (Scalar.clamp 0 1 confidence * 100)).toNat

/-- The label without white space around it, then the percentage. -/
def labelText (label : String) (confidence : Float32) : String :=
  let label := Text.trimmed label
  let share := toString (percent confidence) ++ "%"
  if label = "" then share else label ++ " " ++ share

/-- The font in its own units: the height from the lowest to the highest
point of a line, and how far a glyph moves the caret. -/
structure FontMetrics where
  lineHeight : Float32
  advance : Char → Float32
  deriving Inhabited

/-- The metrics of the font that the program comes with. Its glyphs have one
width, but for one that is a unit wider. -/
def labelFont : FontMetrics := ⟨1200, fun c => if c = 'p' then 601 else 600⟩

/-- How far a glyph moves the caret at a line height of `px`. The scale
is computed for the height and carried over to the width. -/
def FontMetrics.step (f : FontMetrics) (px : Float32) (c : Char) : Float32 :=
  f.advance c * (px / f.lineHeight * px / px)

/-- The width of a text: where the caret stands after its last glyph. -/
def FontMetrics.measure (f : FontMetrics) (px : Float32) (text : String) : Float32 :=
  text.toList.foldl (fun caret c => caret + f.step px c) 0

-- ============================================================== marks

/-- The colours of the overlay. -/
structure Colors where
  stroke : Rgb
  labelBackground : Rgb
  labelText : Rgb
  deriving DecidableEq, Repr, Inhabited

/-- What draws detections: in which colours, and the font of the labels. -/
structure Renderer where
  colors : Colors
  font : FontMetrics
  deriving Inhabited

/-- How much larger than nominal lines and letters are on a surface: they
grow with its shorter side and never shrink. -/
def sizeFactor (width height : Nat) : Float32 :=
  Scalar.larger (single (min width height) / 500) 1

/-- A rectangle to fill, and the pixel to fill it with. -/
structure Mark where
  rect : Rect
  pixel : Pixel
  deriving DecidableEq, Repr

/-- The whole-pixel corners of a box, the lower right one outside. -/
structure Corners where
  x0 : Int
  y0 : Int
  x1 : Int
  y1 : Int
  deriving DecidableEq, Repr

/-- The least whole-pixel corners around a box. -/
def Corners.around (b : PixelBox Float32) : Corners :=
  ⟨floor b.x, floor b.y, ceil (b.x + b.width), ceil (b.y + b.height)⟩

/-- The four strokes along the inside of the edges, `line` pixels wide.
A box has at least one pixel in each direction. -/
def strokes (c : Corners) (line : Int) : List Rect :=
  let w := max (c.x1 - c.x0) 1
  let h := max (c.y1 - c.y0) 1
  [ ⟨c.x0, c.y0, w, min line h⟩,
    ⟨c.x0, c.y1 - line, w, min line h⟩,
    ⟨c.x0, c.y0, min line w, h⟩,
    ⟨c.x1 - line, c.y0, min line w, h⟩ ]

/-- The background of a label with its corner at the box. -/
def labelRect (font : FontMetrics) (c : Corners) (factor : Float32) (text : String) : Rect :=
  let px := 14 * factor
  let padding := round (2 * factor)
  let width := ceil (font.measure px text) + padding * 2
  let height := ceil px + padding * 2
  ⟨c.x0, if c.y0 ≥ height then c.y0 - height else c.y0, width, height⟩

/-- The marks of one detection on a surface of the given factor. -/
def marks (renderer : Renderer) (viewport : Viewport Float32) (factor : Float32) (d : Detection) :
    List Mark :=
  let corners := Corners.around (viewport.map d.box)
  let line := round (Scalar.larger ((2 * factor).round) 1)
  (strokes corners line).map (⟨·, renderer.colors.stroke.opaquePixel⟩)
    ++ [⟨labelRect renderer.font corners factor (labelText d.label d.confidence),
         renderer.colors.labelBackground.opaquePixel⟩]

/-- Fills rectangles in order. -/
def paint (surface : Canvas) (ms : List Mark) : Canvas :=
  ms.foldl (fun c m => c.fill m.rect m.pixel) surface

/-- Draws detections on top of what a surface holds. -/
def draw (renderer : Renderer) (surface : Canvas) (viewport : Viewport Float32)
    (detections : List Detection) : Canvas :=
  paint surface
    (detections.flatMap (marks renderer viewport (sizeFactor surface.width surface.height)))

/-- Clears an overlay and draws the current detections. Without a
viewport the overlay stays clear. -/
def repaint (renderer : Renderer) (canvas : Canvas) (viewport : Option (Viewport Float32))
    (detections : List Detection) : Canvas :=
  match viewport with
  | none => canvas.cleared
  | some v => draw renderer canvas.cleared v detections

end VideoWall.Overlay
