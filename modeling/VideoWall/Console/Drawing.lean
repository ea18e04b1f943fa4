/-
Drawing the live screen: a line with what is looked at, the wall, a line
with the keys, and the toasts over the wall.
-/
import VideoWall.Console.Tile
import VideoWall.Terminal.Shapes
import VideoWall.Terminal.Wrap

namespace VideoWall.Console

open Terminal Raster

-- ============================================================= lines

/-- The name of the program, in front of the header. -/
def headerName : String := " nvr-live "

variable (c : Console)

/-- The first line of the screen. -/
def header : Line :=
  let t := c.theme.screen
  let page := "page " ++ toString (c.wall.currentPage + 1) ++ "/" ++ toString c.wall.pages
  let detections := if c.wall.view.showDetections then "detections on" else "detections off"
  [ ⟨headerName, .strong t.accent⟩,
    ⟨c.client.base.toText ++ "  ", .colored t.muted⟩,
    ⟨"layout " ++ c.wall.view.layout.label ++ "  " ++ page ++ "  " ++ detections, .colored t.text⟩ ]

/-- The keys that the footer explains. -/
def hints : List (String × String) :=
  [ ("q", "quit"), ("1-4", "layout"), ("[ ]", "page"), ("f", "focus"), ("Enter", "play"),
    ("d", "detections"), ("s", "snapshot"), ("r", "reload"), ("hjkl +-0", "ptz") ]

/-- A key and what it does. -/
def hint (t : Theme.Screen) (key label : String) : Line :=
  [⟨"[" ++ key ++ "]", .strong t.accent⟩, ⟨" " ++ label, .colored t.muted⟩]

/-- The last line of the screen. -/
def footer (t : Theme.Screen) : Line :=
  [⟨" | ", .colored t.border⟩].intercalate (hints.map fun (key, label) => hint t key label)

/-- The colour of a toast. -/
def severityColor (t : Theme.Screen) : Severity → Rgb
  | .info => t.accent
  | .success => t.success
  | .warning => t.warning
  | .error => t.error

-- ============================================================== wall

/-- Draws what a tile shows. -/
def drawContent (b : Buffer) (inner : Area) : Content → Buffer
  | .message text color => b.writeMessage inner (.colored color) text
  | .picture surface => b.drawPicture inner surface

/-- Draws a tile. One without room inside of its border shows nothing. -/
def drawTile (b : Buffer) (area : Area) (name : String) (focused : Bool) : Console × Buffer :=
  let t := c.theme.screen
  let element := c.wall.players.element name
  let phase := c.wall.players.phase? name
  let border := if focused then t.borderActive else t.border
  let b := b.drawBorder area (.colored border)
    (title t name phase element.muted element.status focused)
    (badge t (c.wall.poller.isEnabled name) (c.wall.poller.feed name))
  let inner := area.inner
  if inner.isEmpty then (c, b)
  else
    let (width, height) := pictureSize inner
    let (c, content) := c.showTile name width height
    (c, drawContent b inner content)

/-- Draws the tiles of the wall, each with its number. -/
def drawTiles (area : Area) : List (String × Nat) → Console → Buffer → Console × Buffer
  | [], c, b => (c, b)
  | (name, i) :: rest, c, b =>
      let (columns, rows) := c.wall.view.layout.dimensions
      match area.tile? columns rows i with
      | none => (c, b)
      | some cell =>
          let (c, b) := c.drawTile b cell name (i == c.cursor)
          drawTiles area rest c b

/-- What is said while the list of streams is not there. -/
def loadingText : String := "Loading streams…"

/-- What is said where there is nothing to watch. -/
def nothingText : String := "The recorder has no live streams enabled."

/-- Draws the wall, or what there is to say instead. -/
def drawWall (b : Buffer) (area : Area) : Console × Buffer :=
  let t := c.theme.screen
  match c.load with
  | .loading => (c, b.writeMessage area (.colored t.muted) loadingText)
  | .failed message =>
      (c, b.writeMessage area (.colored t.error)
        ("Could not load streams: " ++ message ++ "\n\nPress r to retry."))
  | .ready =>
      if c.wall.visible.isEmpty then (c, b.writeMessage area (.colored t.muted) nothingText)
      else drawTiles area c.wall.visible.zipIdx c b

-- ============================================================ toasts

/-- The most columns of a toast. -/
def toastColumns : Nat := 48

/-- How high a toast is, with its border. -/
def toastRows : Nat := 3

/-- Draws a toast on its area, over what was there. -/
def drawToast (t : Theme.Screen) (b : Buffer) (area : Area) (toast : Toast) : Buffer :=
  let color := severityColor t toast.severity
  let text : Style := .colored t.text
  let b := ((b.clear area).restyle area text).drawBorder area (.colored color)
    [⟨" " ++ toast.severity.tag ++ " ", .strong color⟩] []
  b.writeCut area.inner
    ((Text.lines toast.message.toList).map fun l => [⟨String.ofList l, text⟩])

/-- Draws toasts from a row on, one below the other, as far as they fit. -/
def drawToasts (t : Theme.Screen) (area : Area) : (y : Nat) → List Toast → Buffer → Buffer
  | _, [], b => b
  | y, toast :: rest, b =>
      if area.bottom < y + toastRows then b
      else
        let width := min toastColumns area.width
        let place : Area := ⟨area.right - width, y, width, toastRows⟩
        drawToasts t area (y + toastRows) rest (drawToast t b place toast)

-- ============================================================ screen

/-- Draws the screen of a terminal. The pictures of tiles are kept for
the next time. -/
def draw (now width height : Nat) : Console × Buffer :=
  let screen : Area := ⟨0, 0, width, height⟩
  let bands := screen.bands
  let b := (Buffer.blank screen).writeCut bands.header [c.header]
  let (c, b) := c.drawWall b bands.main
  let b := b.writeCut bands.footer [footer c.theme.screen]
  let toasts := c.toasts.visibleAt now
  let b := drawToasts c.theme.screen bands.main bands.main.y toasts.queue.reverse b
  ({ c with toasts }, b)

end VideoWall.Console
