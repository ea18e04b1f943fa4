/-
The live screen: the wall, a cursor on one of its tiles, toasts, and how
far the list of streams has got.

Lists of streams are loaded one at a time. A load has a serial number,
and a new one takes the place of the one under way; what comes of a load
that is not under way any more is ignored. So the list on screen is that
of the load which was started last of all that have come to an end.

For every tile on screen two pictures may be kept: the video as it was
last shown, and the overlay of detections, which is painted again only
when something it is made of has changed.
-/
import VideoWall.Raster.Canvas
import VideoWall.Recorder.Client
import VideoWall.Theme
import VideoWall.Toast
import VideoWall.Wall.Controller

namespace VideoWall

open Raster Recorder Wall

namespace Console

/-- How far the list of streams has got. -/
inductive Load where
  | loading
  | ready
  | failed (message : String)
  deriving DecidableEq, Repr, Inhabited

/-- What the overlay of a tile is made of: a generation of its detections,
the size of the tile, and that of the frame. -/
structure OverlayKey where
  generation : Nat
  width : Nat
  height : Nat
  native : Nat × Nat
  deriving DecidableEq, Repr

/-- An overlay that has been painted, and what it was made of. -/
structure PaintedOverlay where
  key : OverlayKey
  canvas : Canvas

end Console

/-- The live screen. -/
structure Console where
  client : Client
  theme : Theme := {}
  renderer : Overlay.Renderer
  wall : Controller := {}
  toasts : Toasts := {}
  load : Console.Load := .loading
  pending : Option Nat := none
  loads : Nat := 0
  cursor : Nat := 0
  restore : Option Layout := none
  overlays : ByName Console.PaintedOverlay := {}
  video : ByName Canvas := {}

namespace Console

variable (c : Console)

/-- The stream under the cursor. -/
def selected? : Option String := c.wall.visible[c.cursor]?

/-- Keeps the cursor on the tiles that there are. -/
def clampCursor : Console := { c with cursor := min c.cursor (c.wall.visible.length - 1) }

/-- The entries of the streams on screen. -/
def onScreen {α : Type} (t : ByName α) : ByName α :=
  ⟨t.entries.filter fun e => c.wall.visible.contains e.1⟩

/-- Drops the pictures of tiles that have left the screen. -/
def forgetHidden : Console := { c with overlays := c.onScreen c.overlays, video := c.onScreen c.video }

/-- What every change of the view ends with. -/
def settled : Console := c.clampCursor.forgetHidden

/-- Shows a toast. -/
def say (now : Nat) (severity : Severity) (message : String) : Console :=
  { c with toasts := c.toasts.push ⟨severity, message, now⟩ }

-- =========================================================== loading

/-- Begins to load the list of streams. What was under way is given up. -/
def reload : Console :=
  { c with
    pending := some c.loads
    loads := c.loads + 1
    load := if c.wall.streams.isEmpty then .loading else c.load }

/-- What is said about a list that could not be loaded. -/
def loadProblem (f : Failure) : String :=
  if f.isUnauthorized then f.message ++ " (check --user / --password)" else f.message

/-- Takes what came of the load under way. A failure leaves the wall as
it is. -/
def takeLoad (now : Nat) (outcome : Except Failure (List Stream)) : Console :=
  let c := { c with pending := none }
  match outcome with
  | .ok streams =>
      let again := c.load = .ready
      let c := { c with wall := c.wall.setStreams streams, load := .ready }.settled
      if again then c.say now .success "Stream list reloaded" else c
  | .error f =>
      if c.wall.streams.isEmpty then { c with load := .failed (loadProblem f) }
      else c.say now .error ("Reload failed: " ++ loadProblem f)

/-- A load has come to an end. -/
def loaded (serial : Nat) (now : Nat) (outcome : Except Failure (List Stream)) : Console :=
  if c.pending = some serial then c.takeLoad now outcome else c

end Console

end VideoWall
