/-
What a terminal shows: a rectangle of cells, each with a text, a colour,
a colour behind it, and whether it is bold. A colour that is not set is
the terminal's own. Whatever lies outside of the rectangle is ignored.
-/
import VideoWall.Raster.Canvas
import VideoWall.Terminal.Area

namespace VideoWall.Terminal

open Raster

/-- How text looks. -/
structure Style where
  color : Option Rgb := none
  bold : Bool := false
  deriving DecidableEq, Repr, Inhabited

/-- Plain text of a colour. -/
def Style.colored (c : Rgb) : Style := ⟨some c, false⟩

/-- Bold text of a colour. -/
def Style.strong (c : Rgb) : Style := ⟨some c, true⟩

/-- A cell: what is written in it, on which ground. -/
structure Cell where
  text : String := " "
  color : Option Rgb := none
  ground : Option Rgb := none
  bold : Bool := false
  deriving DecidableEq, Repr, Inhabited

namespace Cell

/-- Gives a cell a style. What the style leaves open stays as it was, and
a bold cell stays bold. -/
def styled (c : Cell) (s : Style) : Cell :=
  { c with color := s.color.or c.color, bold := c.bold || s.bold }

/-- A cell with another text, in a style. -/
def put (c : Cell) (text : String) (s : Style) : Cell := { c with text }.styled s

/-- A cell with more text, in a style. -/
def append (c : Cell) (text : String) (s : Style) : Cell :=
  { c with text := c.text ++ text }.styled s

end Cell

/-- A rectangle of cells, row by row. -/
structure Buffer where
  area : Area
  cells : Array Cell
  size_eq : cells.size = area.width * area.height

namespace Buffer

/-- A rectangle of blank cells. -/
def blank (area : Area) : Buffer :=
  ⟨area, Array.replicate (area.width * area.height) {}, by simp⟩

/-- Where the cell of a column and a row stands. -/
def index (b : Buffer) (x y : Nat) : Nat := (y - b.area.y) * b.area.width + (x - b.area.x)

/-- The cell of a column and a row, if the buffer has it. -/
def get? (b : Buffer) (x y : Nat) : Option Cell :=
  if b.area.holds x y then b.cells[b.index x y]? else none

/-- Changes the cell at a place. -/
def modify (b : Buffer) (x y : Nat) (f : Cell → Cell) : Buffer :=
  if b.area.holds x y then
    { b with
      cells := b.cells.modify (b.index x y) f
      size_eq := by rw [Array.size_modify, b.size_eq] }
  else b

/-- Changes all cells of an area, by their places. -/
def update (b : Buffer) (a : Area) (f : (x y : Nat) → Cell → Cell) : Buffer :=
  let place (i : Nat) (c : Cell) : Cell :=
    let x := b.area.x + i % b.area.width
    let y := b.area.y + i / b.area.width
    if a.holds x y then f x y c else c
  { b with
    cells := b.cells.mapIdx place
    size_eq := by rw [Array.size_mapIdx, b.size_eq] }

/-- Empties all cells of an area. -/
def clear (b : Buffer) (a : Area) : Buffer := b.update a fun _ _ _ => {}

/-- Gives all cells of an area another style. -/
def restyle (b : Buffer) (a : Area) (s : Style) : Buffer := b.update a fun _ _ c => c.styled s

/-- The rows of cells, from the top. -/
def rows (b : Buffer) : List (List Cell) :=
  (List.range b.area.height).map fun row =>
    (b.cells.extract (row * b.area.width) ((row + 1) * b.area.width)).toList

end Buffer

end VideoWall.Terminal
