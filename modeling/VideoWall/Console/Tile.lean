/-
One tile of the wall: its title, its badge, and what it shows, which is a
message or the video with the detections over it.

The overlay of a tile is painted again only when its key has changed.
The key holds the generation of the detections and both sizes, and these
are all that the picture depends on; so the overlay that is shown is
always the one that would be painted afresh.
-/
import VideoWall.Console.Basic
import VideoWall.Media.Letterbox
import VideoWall.Raster.Blend
import VideoWall.Terminal.Line

namespace VideoWall.Console

open VideoWall.Geometry Media Raster Terminal
open Player (Phase)
open Polling (Feed)

-- ============================================================ titles

/-- The mark of the tile under the cursor. -/
def cursorMark : String := "▸"

/-- The mark of a stream that plays without sound. -/
def mutedMark : String := "🔇"

/-- How a stream is doing, in a word; without a session its element tells. -/
def stateText (phase : Option Phase) (muted : Bool) (status : String) : String :=
  match phase with
  | some .playing => if muted then "live " ++ mutedMark else "live"
  | some .attaching => "connecting"
  | some .recovering => "reconnecting"
  | some .awaitingUser => "paused"
  | some .failed => "error"
  | none => status

/-- The colour of what is said about a session. -/
def stateColor (t : Theme.Screen) : Option Phase → Rgb
  | some .playing => t.success
  | some .failed => t.error
  | some .recovering | some .awaitingUser => t.warning
  | _ => t.muted

/-- The title of a tile. -/
def title (t : Theme.Screen) (name : String) (phase : Option Phase) (muted : Bool)
    (status : String) (focused : Bool) : Line :=
  [ ⟨(if focused then cursorMark else " ") ++ " " ++ name ++ " ", .strong t.text⟩,
    ⟨stateText phase muted status, .colored (stateColor t phase)⟩,
    ⟨" ", {}⟩ ]

/-- What is said of the detections of a tile; nothing if it is not polled. -/
def badge (t : Theme.Screen) (polling : Bool) (f : Feed) : Line :=
  if !polling then []
  else if f.lastError.isSome then
    [⟨" detections unavailable (" ++ toString f.errors ++ ") ", .colored t.warning⟩]
  else [⟨" " ++ toString f.detections.length ++ " detection(s) ", .colored t.muted⟩]

-- =========================================================== content

/-- What a tile shows inside of its border. -/
inductive Content where
  | message (text : String) (color : Rgb)
  | picture (surface : Canvas)

/-- What is said where the user has to start the video. -/
def playPromptText : String := "▶ Press Enter to play"

/-- The surface that a tile had, if it is of the size it has now. -/
def keptSurface (kept : Option Canvas) (width height : Nat) : Canvas :=
  match kept with
  | some surface =>
      if surface.width = width ∧ surface.height = height then surface
      else Canvas.blank width height
  | none => Canvas.blank width height

/-- The overlay for a key: the one that was painted for it, or else one
painted now, over the one that was there. -/
def refreshOverlay (renderer : Overlay.Renderer) (key : OverlayKey)
    (viewport : Option (Viewport Float32)) (detections : List Recorder.Detection)
    (kept : Option PaintedOverlay) : PaintedOverlay :=
  let canvas := keptSurface (kept.map (·.canvas)) key.width key.height
  let painted : PaintedOverlay := ⟨key, Overlay.repaint renderer canvas viewport detections⟩
  match kept with
  | some overlay => if overlay.key = key then overlay else painted
  | none => painted

variable (c : Console)

/-- Shows a frame on a tile with a picture of a size, below the
detections if they are polled for. A frame without a size leaves the
picture as it was. -/
def showFrame (name : String) (frame : Frame) (width height : Nat) : Console × Canvas :=
  let viewport := displayViewport? frame.width frame.height width height
  let surface := match viewport with
    | some v => frame.paint v width height
    | none => keptSurface (c.video.get? name) width height
  if c.wall.poller.isEnabled name then
    let feed := c.wall.poller.feed name
    let key : OverlayKey := ⟨feed.generation, width, height, (frame.width, frame.height)⟩
    let overlay :=
      refreshOverlay c.renderer key viewport feed.detections (c.overlays.get? name)
    let surface := surface.composite overlay.canvas
    ({ c with video := c.video.set name surface, overlays := c.overlays.set name overlay }, surface)
  else ({ c with video := c.video.set name surface }, surface)

/-- What a tile shows inside of its border, whose picture has a size. -/
def showTile (name : String) (width height : Nat) : Console × Content :=
  let element := c.wall.players.element name
  let t := c.theme.screen
  match element.overlay, element.frame with
  | .error message, _ => (c, .message message t.error)
  | .playPrompt, _ => (c, .message playPromptText t.warning)
  | .none, none => (c, .message element.status t.muted)
  | .none, some frame =>
      let (c, surface) := c.showFrame name frame width height
      (c, .picture surface)

end VideoWall.Console
