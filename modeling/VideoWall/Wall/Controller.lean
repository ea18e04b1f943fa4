/-
The wall: the list of streams, what is looked at, and the player
sessions and polling tasks that go with it.

One rule keeps them in step, and every change of the wall ends with it.
Streams that left the screen are torn down, streams on screen are
attached, which does nothing to those that are; and detections are
polled for just the streams on screen that have a detector, while
detections are shown.

Streams fill pages in list order; a page number past the end means the last
page, and there is always at least one page. A wall of one tile has no pages:
it shows the selected stream, or the first one when the selection is not in
the list.
-/
import VideoWall.Player.Registry
import VideoWall.Polling.Poller
import VideoWall.Recorder.Stream
import VideoWall.Wall.View

namespace VideoWall.Wall

open Recorder Player Polling

-- ============================================================== pages

/-- How many pages `total` streams fill. -/
def pageCount (total pageSize : Nat) : Nat := max (ceilDiv total (max pageSize 1)) 1

/-- A page number inside the pages there are. -/
def clampPage (page total pageSize : Nat) : Nat := min page (pageCount total pageSize - 1)

/-- Where a stream stands in a list. -/
def position? (streams : List Stream) (name : String) : Option Nat :=
  streams.findIdx? (·.name == name)

/-- Where the selection stands in a list, the front if it is not there. -/
def selectedIndex (streams : List Stream) (selected : Option String) : Nat :=
  (selected.bind (position? streams)).getD 0

/-- The streams on screen, in list order. -/
def visibleStreams (streams : List Stream) (layout : Layout) (selected : Option String)
    (page : Nat) : List Stream :=
  match layout with
  | .single => (streams.drop (selectedIndex streams selected)).take 1
  | layout =>
      let size := layout.pageSize
      (streams.drop (clampPage page streams.length size * size)).take size

-- =========================================================== the wall

/-- The wall. `visible` are the names on screen, in display order. -/
structure Controller where
  players : Registry := {}
  poller : Poller := {}
  streams : List Stream := []
  view : View := {}
  visible : List String := []
  deriving Inhabited

namespace Controller

variable (c : Controller)

-- ============================================================ views

/-- The stream of a name, if the list has it. -/
def stream? (name : String) : Option Stream := c.streams.find? (·.name == name)

/-- How many pages there are; a wall of one tile has one for each
stream. -/
def pages : Nat :=
  match c.view.layout with
  | .single => max c.streams.length 1
  | layout => pageCount c.streams.length layout.pageSize

/-- The page on screen, from nought. -/
def currentPage : Nat :=
  match c.view.layout with
  | .single => selectedIndex c.streams c.view.selected
  | layout => clampPage c.view.page c.streams.length layout.pageSize

/-- The streams that belong on screen. -/
def wanted : List Stream :=
  visibleStreams c.streams c.view.layout c.view.selected c.view.page

/-- Whether detections of a stream are polled while it is on screen. -/
def polls (s : Stream) : Bool := c.view.showDetections && s.detectionConfigured

-- ===================================================== keeping in step

/-- The view with its page inside the pages there are. -/
def settledView : View :=
  match c.view.layout with
  | .single => c.view
  | layout => { c.view with page := clampPage c.view.page c.streams.length layout.pageSize }

/-- Takes off the sessions that left the screen and attaches those that
belong on it. -/
def reconcilePlayers (next : List Stream) : Registry :=
  let left := c.visible.filter fun name => !next.any (·.name == name)
  let players := left.foldl Registry.teardown c.players
  next.foldl (fun r s => r.attach s.name) players

/-- Stops the tasks that are not wanted any more and starts those that
are. -/
def reconcilePoller (next : List Stream) : Poller :=
  let stale := c.poller.enabledStreams.filter fun name =>
    !next.any fun s => s.name == name && c.polls s
  let poller := stale.foldl Poller.disable c.poller
  (next.filter c.polls).foldl (fun p s => p.enable s.name) poller

/-- Brings sessions and tasks in step with the view. -/
def reconcile : Controller :=
  let c := { c with view := c.settledView }
  let next := c.wanted
  { c with
    players := c.reconcilePlayers next
    poller := c.reconcilePoller next
    visible := next.map (·.name) }

-- ========================================================== changes

/-- Takes a new list of streams. A selection that is not in it is
dropped. -/
def setStreams (streams : List Stream) : Controller :=
  let c := { c with streams }
  let selected := c.view.selected.filter fun name => (c.stream? name).isSome
  { c with view.selected := selected }.reconcile

/-- The selection when the layout changes: a wall of one tile needs one,
and takes the first stream on screen. -/
def selectionFor (layout : Layout) : Option String :=
  if layout = .single ∧ c.view.selected = none then c.visible.head? else c.view.selected

/-- The page when the layout changes: from a wall of one tile, the page
that holds the stream that was watched. -/
def pageFor (layout : Layout) : Nat :=
  if c.view.layout = .single ∧ layout ≠ .single then
    match c.view.selected.bind (position? c.streams) with
    | some i => i / layout.pageSize
    | none => c.view.page
  else c.view.page

/-- Changes the layout. -/
def setLayout (layout : Layout) : Controller :=
  { c with
    view := { c.view with layout, selected := c.selectionFor layout, page := c.pageFor layout }
  }.reconcile

/-- Selects a stream of the list. -/
def select (name : String) : Controller :=
  if (c.stream? name).isSome then
    let c := { c with view.selected := some name }
    if c.view.layout = .single then c.reconcile else c
  else c

/-- The page `delta` pages on, inside the pages there are. -/
def pageAfter (delta : Int) : Nat := min (Int.toNat (c.currentPage + delta)) (c.pages - 1)

/-- Moves by pages, or by streams on a wall of one tile. -/
def stepPage (delta : Int) : Controller :=
  let target := c.pageAfter delta
  if target = c.currentPage then c
  else if c.view.layout = .single then
    { c with view.selected := (c.streams[target]?).map Stream.name }.reconcile
  else { c with view.page := target }.reconcile

/-- Shows or hides detections. -/
def setShowDetections (shown : Bool) : Controller :=
  { c with view.showDetections := shown }.reconcile

/-- Starts new sessions for all streams on screen. -/
def restartVisible : Controller :=
  { c with players := c.visible.foldl Registry.replace c.players }

/-- The user wishes to play a stream. -/
def requestPlay (name : String) : Controller :=
  { c with players := c.players.requestPlay name }

/-- Stops everything. -/
def shutdown : Controller :=
  { c with
    poller := c.poller.disableAll, players := c.players.teardownAll, visible := [] }

end Controller

end VideoWall.Wall
