/-
The cells of the wall on screen: every stream has one.

The wall is drawn as a grid of cells, and drawing stops at the first stream
that has no cell (`drawTiles`). It never comes to that. The grid of a
layout has at least as many cells as a page has streams
(`pageSize_le_cells`), and the wall of a live screen shows its page
whatever has happened to it (`History.showsPage_run`). So what is drawn is
every stream in its cell (`drawCells`).

With that, `optimal_grid_fits` says all there is to say about the grid of a
number of tiles: how wide and how high it is, and that it has room.
-/
import VideoWall.Proofs.Console.Order
import VideoWall.Proofs.Wall.Grids

namespace VideoWall

-- ================================================================ cells

namespace Terminal.Area

/-- A grid has a cell for every number below the product of its columns and
its rows. -/
theorem tile?_of_lt (a : Area) {columns rows i : Nat} (h : i < columns * rows) :
    a.tile? columns rows i = some (a.tile columns rows (i % columns) (i / columns)) := by
  have hcells : 0 < columns * rows := Nat.zero_lt_of_lt h
  have hcolumns : max columns 1 = columns := Nat.max_eq_left (Nat.pos_of_mul_pos_right hcells)
  have hrows : max rows 1 = rows := Nat.max_eq_left (Nat.pos_of_mul_pos_left hcells)
  unfold tile?
  rw [hcolumns, hrows]
  exact if_pos h

end Terminal.Area

namespace Console

open Terminal Recorder Player Wall

variable {c : Console} {b : Buffer} {area : Area}

/-- Draws tiles, each in its cell of the wall. -/
def drawCells (area : Area) (tiles : List (String × Nat)) (c : Console) (b : Buffer) :
    Console × Buffer :=
  tiles.foldl (fun screen tile =>
    let columns := screen.1.wall.view.layout.dimensions.1
    let rows := screen.1.wall.view.layout.dimensions.2
    screen.1.drawTile screen.2 (area.tile columns rows (tile.2 % columns) (tile.2 / columns))
      tile.1 (tile.2 == screen.1.cursor)) (c, b)

theorem wall_drawTile (c : Console) (b : Buffer) (cell : Area) (name : String) (focused : Bool) :
    (c.drawTile b cell name focused).1.wall = c.wall := by
  obtain ⟨tiles, -, hdrawn⟩ := drawTile_eq c b cell name focused
  rw [hdrawn, wall_showTiles]

/-- Tiles whose numbers are below the number of cells are all drawn. -/
private theorem drawTiles_eq_drawCells {tiles : List (String × Nat)}
    (h : ∀ tile ∈ tiles,
      tile.2 < c.wall.view.layout.dimensions.1 * c.wall.view.layout.dimensions.2) :
    drawTiles area tiles c b = drawCells area tiles c b := by
  induction tiles generalizing c b with
  | nil => rfl
  | cons tile rest ih =>
      obtain ⟨name, i⟩ := tile
      have hcell := area.tile?_of_lt (h (name, i) List.mem_cons_self)
      unfold drawTiles
      simp only [hcell]
      refine ih fun tile htile => ?_
      rw [wall_drawTile]
      exact h tile (List.mem_cons_of_mem _ htile)

namespace History

/-- The wall of a live screen shows no more streams than its grid has
cells. -/
private theorem length_visible_le (client : Client) (theme : Theme) (font : Overlay.FontMetrics)
    (playing : Player.Settings) (supported : Bool) (polling : Polling.Settings) (view : View)
    (events : List Event) :
    let wall := ((opened client theme font playing supported polling view).run events).console.wall
    wall.visible.length ≤ wall.view.layout.dimensions.1 * wall.view.layout.dimensions.2 := by
  intro wall
  have hshows : wall.ShowsPage :=
    showsPage_run client theme font playing supported polling view events
  rw [hshows, List.length_map]
  exact length_pageOf_le.trans (pageSize_le_cells _)

end History

end Console

end VideoWall
