/-
How the numbers of a wall are calculated: in words, one operation after
the other. Each function is the one of its name, with whatever stops it
on the way.
-/
import VideoWall.Numeral.Word
import VideoWall.Wall.Controller

namespace VideoWall.Wall.Calculation

open Numeral Recorder

-- ============================================================== layouts

/-- Rounding a root down stops nothing, but squaring it again might. -/
def optimalGrid (count : Nat) : Word.Checked (Nat × Nat) :=
  if count ≤ 20 then pure (Wall.optimalGrid count)
  else do
    let root := squareRoot count
    let square ← Word.mul root root
    let columns ← Word.add root (if square = count then 0 else 1)
    let rows ← Word.ceilDiv count columns
    pure (columns, rows)

/-- Columns and rows of a layout. -/
def dimensions : Layout → Word.Checked (Nat × Nat)
  | .single => pure (1, 1)
  | .count streams => optimalGrid streams
  | .custom columns rows => pure (max columns 1, max rows 1)

/-- How many streams a layout has place for. -/
def pageSize : Layout → Word.Checked Nat
  | .single => pure 1
  | .count streams => pure (max streams 1)
  | .custom columns rows => do
      let (columns, rows) ← dimensions (.custom columns rows)
      Word.mul columns rows

-- ================================================================ pages

/-- How many pages the streams of a list fill. -/
def pageCount (total pageSize : Nat) : Word.Checked Nat := do
  pure (max (← Word.ceilDiv total (max pageSize 1)) 1)

/-- A page number inside the pages there are. -/
def clampPage (page total pageSize : Nat) : Word.Checked Nat := do
  let last ← Word.sub (← pageCount total pageSize) 1
  pure (min page last)

/-- The streams on screen. -/
def visibleStreams (streams : List Stream) (layout : Layout) (selected : Option String)
    (page : Nat) : Word.Checked (List Stream) :=
  if streams.isEmpty then pure []
  else
    match layout with
    | .single => do
        let i := selectedIndex streams selected
        Word.slice streams i (← Word.add i 1)
    | layout => do
        let size ← pageSize layout
        let page ← clampPage page streams.length size
        let start ← Word.mul page size
        let stop ← Word.add start size
        Word.slice streams start (min stop streams.length)

-- ============================================================= the wall

variable (c : Controller)

/-- How many pages there are. -/
def pages : Word.Checked Nat :=
  match c.view.layout with
  | .single => pure (max c.streams.length 1)
  | layout => do pageCount c.streams.length (← pageSize layout)

/-- The page on screen. -/
def currentPage : Word.Checked Nat :=
  match c.view.layout with
  | .single => pure (selectedIndex c.streams c.view.selected)
  | layout => do clampPage c.view.page c.streams.length (← pageSize layout)

/-- The view with its page inside the pages there are. -/
def settledView : Word.Checked View :=
  match c.view.layout with
  | .single => pure c.view
  | layout => do
      let page ← clampPage c.view.page c.streams.length (← pageSize layout)
      pure { c.view with page }

/-- The streams that belong on screen. -/
def wanted : Word.Checked (List Stream) :=
  visibleStreams c.streams c.view.layout c.view.selected c.view.page

/-- Every change of the wall ends with this. -/
def reconcile : Word.Checked Controller := do
  let c := { c with view := ← settledView c }
  let next ← wanted c
  pure { c with
    players := c.reconcilePlayers next
    poller := c.reconcilePoller next
    visible := next.map (·.name) }

/-- Takes a new list of streams. -/
def setStreams (streams : List Stream) : Word.Checked Controller :=
  let c := { c with streams }
  let selected := c.view.selected.filter fun name => (c.stream? name).isSome
  reconcile { c with view.selected := selected }

/-- The page when the layout changes. -/
def pageFor (layout : Layout) : Word.Checked Nat :=
  if c.view.layout = .single ∧ layout ≠ .single then
    match c.view.selected.bind (position? c.streams) with
    | some i => do Word.div i (← pageSize layout)
    | none => pure c.view.page
  else pure c.view.page

/-- Changes the layout. -/
def setLayout (layout : Layout) : Word.Checked Controller := do
  let page ← pageFor c layout
  reconcile { c with view := { c.view with layout, selected := c.selectionFor layout, page } }

/-- Selects a stream of the list. -/
def select (name : String) : Word.Checked Controller :=
  if (c.stream? name).isSome then
    let c := { c with view.selected := some name }
    if c.view.layout = .single then reconcile c else pure c
  else pure c

/-- Moves by pages, or by streams on a wall of one tile. Sums saturate. -/
def stepPage (delta : Int) : Word.Checked Controller := do
  let pages ← pages c
  let current ← currentPage c
  let target := min (Word.saturatingAdd current delta) (← Word.sub pages 1)
  if target = current then pure c
  else if c.view.layout = .single then
    reconcile { c with view.selected := (c.streams[target]?).map Stream.name }
  else reconcile { c with view.page := target }

/-- Shows or hides detections. -/
def setShowDetections (shown : Bool) : Word.Checked Controller :=
  reconcile { c with view.showDetections := shown }

end VideoWall.Wall.Calculation
