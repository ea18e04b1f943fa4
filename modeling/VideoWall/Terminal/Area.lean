/-
Rectangles of terminal cells, and how they are divided: into the rows of
the screen, into the tiles of the wall, and into a border and what is
inside of it.
-/
namespace VideoWall.Terminal

/-- A rectangle of cells. -/
structure Area where
  x : Nat
  y : Nat
  width : Nat
  height : Nat
  deriving DecidableEq, Repr, Inhabited

namespace Area

/-- The last place that a terminal counts to. -/
def lastPlace : Nat := 65535

/-- The area at a place, as far as a terminal counts. -/
def counted (x y width height : Nat) : Area :=
  ⟨x, y, min width (lastPlace - x), min height (lastPlace - y)⟩

/-- The first column behind an area. -/
def right (a : Area) : Nat := a.x + a.width

/-- The first row below an area. -/
def bottom (a : Area) : Nat := a.y + a.height

/-- Whether there is no cell in an area. -/
def isEmpty (a : Area) : Bool := a.width = 0 || a.height = 0

/-- Whether a cell lies in an area. -/
def holds (a : Area) (x y : Nat) : Bool :=
  a.x ≤ x && x < a.right && a.y ≤ y && y < a.bottom

/-- What two areas have in common. -/
def meet (a b : Area) : Area :=
  let x := max a.x b.x
  let y := max a.y b.y
  ⟨x, y, min a.right b.right - x, min a.bottom b.bottom - y⟩

/-- What is left of an area inside of its border. -/
def inner (a : Area) : Area :=
  ⟨min (a.x + 1) a.right, min (a.y + 1) a.bottom, a.width - 2, a.height - 2⟩

/-- The area without its first columns. -/
def indent (a : Area) (columns : Nat) : Area :=
  { a with x := a.x + columns, width := a.width - columns }

-- ============================================================= tiles

/-- Where the part `i` of `n` equal parts of a length begins: at the
nearest whole number. The exact place is taken to hundredths first. -/
def boundary (size n i : Nat) : Nat :=
  let hundredths := (200 * i * size + n) / (2 * n)
  (hundredths + 50) / 100

/-- The tile of a grid in a column and a row, both from nought. -/
def tile (a : Area) (columns rows column row : Nat) : Area :=
  let left := boundary a.width columns column
  let top := boundary a.height rows row
  ⟨a.x + left, a.y + top, boundary a.width columns (column + 1) - left,
    boundary a.height rows (row + 1) - top⟩

/-- The tile of a grid by its number, row by row. -/
def tile? (a : Area) (columns rows i : Nat) : Option Area :=
  let columns := max columns 1
  let rows := max rows 1
  if i < columns * rows then some (a.tile columns rows (i % columns) (i / columns)) else none

/-- The tiles of a grid, row by row. A grid has a tile at least. -/
def grid (a : Area) (columns rows : Nat) : List Area :=
  (List.range (max columns 1 * max rows 1)).filterMap (a.tile? columns rows)

-- ============================================================= bands

/-- The parts of the screen: a line at the top, the wall, and a line at
the bottom. -/
structure Bands where
  header : Area
  main : Area
  footer : Area
  deriving DecidableEq, Repr

/-- The least rows of the wall. -/
def leastRows : Nat := 3

/-- Divides a screen. Where rows are scarce, the wall has its least rows
first, then the header, then the footer. -/
def bands (a : Area) : Bands :=
  let main := max (min leastRows a.height) (a.height - 2)
  let header := min 1 (a.height - main)
  { header := { a with height := header }
    main := { a with y := a.y + header, height := main }
    footer := { a with y := a.y + header + main, height := a.height - main - header } }

end Area

end VideoWall.Terminal
