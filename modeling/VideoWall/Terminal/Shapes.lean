/-
Borders and pictures.

A border is a line around an area, with a title in its upper side and
another in its lower one. A picture is made of cells: a cell shows two
pixels, one above the other, the upper one in the colour of a half block
and the lower one behind it.
-/
import VideoWall.Terminal.Buffer
import VideoWall.Terminal.Line

namespace VideoWall.Terminal

open Raster

-- =========================================================== borders

/-- What a border has in a cell of its area. Corners come before sides;
where an area is so narrow that corners fall together, those on the left
come before those on the right and the upper ones before the lower. Where
sides fall together, the lower one comes first, then the right one. -/
def borderText? (a : Area) (x y : Nat) : Option String :=
  let left := x = a.x
  let top := y = a.y
  let right := x + 1 = a.right
  let bottom := y + 1 = a.bottom
  if left ∧ top then some "┌"
  else if left ∧ bottom then some "└"
  else if right ∧ top then some "┐"
  else if right ∧ bottom then some "┘"
  else if bottom then some "─"
  else if right then some "│"
  else if top then some "─"
  else if left then some "│"
  else none

/-- Where a title stands in the border of an area. -/
def titleArea (a : Area) (y : Nat) : Area := ⟨a.x + 1, y, a.width - 2, 1⟩

namespace Buffer

/-- Draws a border with a title above and another one below. -/
def drawBorder (b : Buffer) (a : Area) (style : Style) (title footing : Line) : Buffer :=
  let a := a.meet b.area
  if a.isEmpty then b
  else
    let b := b.update a fun x y c =>
      match borderText? a x y with
      | some text => c.put text style
      | none => c
    (b.writeLine (titleArea a a.y) title).writeLine (titleArea a (a.bottom - 1)) footing

end Buffer

-- ========================================================== pictures

/-- The block that fills the upper half of a cell. -/
def upperHalf : String := "▀"

/-- The size of the picture that fills an area. A cell shows two pixels, one
above the other. -/
def pictureSize (a : Area) : Nat × Nat := (a.width, 2 * a.height)

/-- Shows two pixels in a cell. -/
def Cell.showing (c : Cell) (top bottom : Rgb) : Cell :=
  { c with text := upperHalf, color := some top, ground := some bottom }

/-- The part of an area that a picture fills. A last row of pixels
without one below it is not shown. -/
def filledArea (a : Area) (picture : Canvas) : Area :=
  { a with width := min a.width picture.width, height := min a.height (picture.height / 2) }

/-- Draws a picture in the middle of an area. -/
def Buffer.drawPicture (b : Buffer) (a : Area) (picture : Canvas) : Buffer :=
  b.update (filledArea a picture) fun x y c =>
    let column := x - a.x
    let row := 2 * (y - a.y)
    c.showing (picture.get column row).rgb (picture.get column (row + 1)).rgb

end VideoWall.Terminal
