/-
What the keys do. A key changes the live screen at once; what takes time
is an errand, which somebody else runs, and which ends in a toast.
-/
import VideoWall.Console.Basic
import VideoWall.Recorder.Camera
import VideoWall.Snapshot.Basic

namespace VideoWall.Console

open Recorder Wall

/-- The keys that are told apart. -/
inductive Key where
  | char (c : Char)
  | escape
  | enter
  | left
  | right
  | up
  | down
  | pageUp
  | pageDown
  | other
  deriving DecidableEq, Repr

/-- What somebody has to do for the live screen. A snapshot is taken of
what was on screen when it was asked for. -/
inductive Errand where
  | load (serial : Nat)
  | snapshot (stream : String) (element : Media.Element) (detections : List Detection)
  | nudge (camera : Camera) (direction : PtzDirection)
  | home (camera : Camera)

/-- What follows from a key: errands, or the end. -/
inductive Response where
  | goOn (errands : List Errand)
  | quit

-- ============================================================= keys

/-- The layout that a digit picks. -/
def layoutOfKey : Char → Layout
  | '1' => .single
  | '3' => .preset 9
  | '4' => .preset 16
  | _ => .preset 4

/-- Whether a digit picks a layout. -/
def isLayoutKey (k : Char) : Bool := ['1', '2', '3', '4'].contains k

/-- The way a key moves a camera. -/
def directionOfKey? : Char → Option PtzDirection
  | 'h' => some .left
  | 'l' => some .right
  | 'k' => some .up
  | 'j' => some .down
  | '+' | '=' => some .zoomIn
  | '-' => some .zoomOut
  | _ => none

variable (c : Console)

-- ====================================================== moving about

/-- Changes the layout. The stream under the cursor is the one that a
wall of one tile shows. -/
def pickLayout (layout : Layout) : Console :=
  let wall := match layout, c.selected? with
    | .single, some name => c.wall.select name
    | _, _ => c.wall
  { c with restore := none, wall := wall.setLayout layout, cursor := 0 }

/-- The cursor after a move; it stays on the tiles that there are. -/
def cursorAfter (delta : Int) : Nat := min (c.cursor + delta).toNat (c.wall.visible.length - 1)

/-- Moves the cursor. On a wall of one tile the next or the previous
stream is shown. -/
def moveCursor (delta : Int) : Console :=
  if c.wall.view.layout = .single then { c with wall := c.wall.stepPage delta.sign }
  else if c.wall.visible.isEmpty then c
  else { c with cursor := c.cursorAfter delta }

/-- A number in a signed machine word. -/
def inWord (n : Int) : Int := n.bmod 18446744073709551616

/-- The tiles from one row to the next, counted in a machine word. -/
def rowStep : Int := inWord c.wall.view.layout.dimensions.1

/-- Turns pages. The cursor goes to the first tile. -/
def turnPage (delta : Int) : Console := { c with wall := c.wall.stepPage delta, cursor := 0 }

/-- Shows the stream under the cursor alone, or all again, with the
cursor on the stream that was watched. -/
def toggleFocus : Console :=
  match c.restore with
  | some layout =>
      let wall := c.wall.setLayout layout
      let cursor := (wall.view.selected.bind wall.visible.idxOf?).getD 0
      { c with restore := none, wall, cursor }
  | none =>
      match c.selected? with
      | none => c
      | some name =>
          let layout := c.wall.view.layout
          if layout = .single then c
          else
            { c with
              restore := some layout
              wall := (c.wall.select name).setLayout .single
              cursor := 0 }

-- ============================================================ others

/-- Shows or hides detections. -/
def toggleDetections (now : Nat) : Console :=
  let shown := !c.wall.view.showDetections
  let c := { c with wall := c.wall.setShowDetections shown, overlays := {} }
  c.say now .info (if shown then "Detection overlays on" else "Detection overlays off")

/-- The errand for a snapshot of the stream under the cursor. -/
def snapshotErrand : List Errand :=
  match c.selected? with
  | none => []
  | some name =>
      let detections :=
        if c.wall.view.showDetections then (c.wall.poller.feed name).detections else []
      [.snapshot name (c.wall.players.element name) detections]

/-- What is said about a camera that cannot be moved. -/
def noPtz (name : String) : String := "'" ++ name ++ "' has no PTZ control"

/-- Sends out an errand for the camera under the cursor, if it can be
moved. -/
def withCamera (now : Nat) (errand : Camera → Errand) : Console × List Errand :=
  match c.selected? with
  | none => (c, [])
  | some name =>
      if (c.wall.stream? name).any (·.ptzEnabled) then (c, [errand ⟨c.client, name⟩])
      else (c.say now .warning (noPtz name), [])

/-- What a character does, if it does anything. -/
def typed? (now : Nat) (k : Char) : Option (Console × List Errand) :=
  if isLayoutKey k then some (c.pickLayout (layoutOfKey k), [])
  else
    match directionOfKey? k with
    | some direction => some (c.withCamera now (.nudge · direction))
    | none =>
        match k with
        | 'f' => some (c.toggleFocus, [])
        | '[' => some (c.turnPage (-1), [])
        | ']' => some (c.turnPage 1, [])
        | 'd' => some (c.toggleDetections now, [])
        | 's' => some (c, c.snapshotErrand)
        | 'r' => some ((c.reload).say now .info "Reloading streams", [.load c.loads])
        | 'R' =>
            some ({ c with wall := c.wall.restartVisible }.say now .info "Restarting players", [])
        | '0' => some (c.withCamera now .home)
        | _ => none

/-- What a key does, if it does anything besides ending all. -/
def act? (now : Nat) : Key → Option (Console × List Errand)
  | .char k => c.typed? now k
  | .left => some (c.moveCursor (-1), [])
  | .right => some (c.moveCursor 1, [])
  | .up => some (c.moveCursor (inWord (-c.rowStep)), [])
  | .down => some (c.moveCursor c.rowStep, [])
  | .pageUp => some (c.turnPage (-1), [])
  | .pageDown => some (c.turnPage 1, [])
  | .enter =>
      match c.selected? with
      | none => some (c, [])
      | some name => some ({ c with wall := c.wall.requestPlay name }, [])
  | .escape | .other => none

/-- What a key makes of the screen, and what is to be done then. -/
def press (now : Nat) (k : Key) : Console × Response :=
  if k = .escape ∨ k = .char 'q' then (c, .quit)
  else
    match c.act? now k with
    | none => (c, .goOn [])
    | some (c, errands) => (c.settled, .goOn errands)

-- =========================================================== errands

/-- A snapshot has been saved, or why it has not. -/
def snapshotTaken (now : Nat) : Except Report String → Console
  | .ok path => c.say now .success ("Snapshot saved: " ++ path)
  | .error r => c.say now .error ("Snapshot failed: " ++ r.line)

/-- A camera has been moved, or why it has not. -/
def nudged (now : Nat) : Except Report Unit → Console
  | .ok () => c
  | .error r => c.say now .error r.line

/-- A camera has been sent home, or why it has not. -/
def sentHome (now : Nat) (stream : String) : Except Report Unit → Console
  | .ok () => c.say now .info ("'" ++ stream ++ "' returning home")
  | .error r => c.say now .error r.line

end VideoWall.Console
