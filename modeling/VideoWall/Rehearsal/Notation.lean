/-
How rehearsals are written down, and what is told of them after each cue,
as JSON values.

Scripts of engines, cues and scripted servers are read: an outcome is
`true`, `false` or a pair with a delay; a cue is its name followed by its
arguments; bytes are digit pairs, or a list of them in which a pair with a
number repeats. What is told is elements, detection feeds, views and the
screen, of which a row is its text, or runs of cells that look alike.
-/
import VideoWall.Json.Lenient
import VideoWall.Rehearsal.Screen
import VideoWall.Rehearsal.Stage
import VideoWall.Text.Utf8

namespace VideoWall.Rehearsal

open Json Media Wall

namespace Notation

open Console Recorder

-- ============================================================== data

/-- The bytes that a text of digit pairs writes. -/
def digitBytes (v : Value) : List UInt8 := (Text.Hex.toBytes? v.word.toList).getD []

/-- The bytes of an item: digit pairs, or digit pairs and how often they are
repeated. -/
def itemBytes : Value → List UInt8
  | .text s => digitBytes (.text s)
  | v => (List.replicate (v.nth 1).count (digitBytes (v.nth 0))).flatten

/-- The bytes that a value writes. -/
def bytes : Value → List UInt8
  | .array items => items.flatMap itemBytes
  | v => digitBytes v

/-- A stream: its name, or its fields. -/
def stream : Value → Stream
  | .text name => { name }
  | v => (Stream.reading.ofValue v).toOption.getD {}

/-- A layout; none is written for the one that a wall begins with. -/
def layout : Value → Layout
  | .null => default
  | v => (Layout.decode maxDepth (Node.ofValue v)).toOption.getD default

/-- A view. Detections are shown unless it says otherwise. -/
def view (v : Value) : View :=
  ⟨layout (v.part "layout"), (v.part "page").count, (v.part "selected").word?,
    (v.part "show_detections").flagOr true⟩

/-- Detections of which only the labels matter. -/
def labels (v : Value) : List Detection := v.items.map fun l => { label := l.word }

-- =========================================================== scripts

/-- An outcome: whether a request succeeds, and after which delay. -/
def outcome : Value → Outcome
  | .array l => ⟨(l.getD 0 .null).flag, (l.getD 1 .null).count⟩
  | v => ⟨v.flag, 0⟩

/-- Outcomes, one for each request. -/
def outcomes (v : Value) : List Outcome := v.items.map outcome

/-- The reply to a request for the detections of a stream. -/
def reply (stream : String) (v : Value) : Reply :=
  let outcome := match v.part "status", v.part "bad_url" with
    | .number n, _ =>
        .error (.status ("/api/detection/results/" ++ stream) (Value.number n).count)
    | _, .text t => .error (.invalidBase t)
    | _, _ => .ok (labels (v.part "ok"))
  ⟨outcome, (v.part "ms").count⟩

/-- What happens to the engines of a stream. -/
def streamScript (v : Value) : StreamScript :=
  ⟨outcomes (v.part "attach"), outcomes (v.part "play"), outcomes (v.part "urls")⟩

/-- A script in which every stream has its own. -/
def script (engines replies : Value) : Script where
  supported := !(engines.part "unsupported").flag
  create := outcomes (engines.part "create")
  streams := ⟨(engines.part "streams").members.map fun (n, v) => (n, streamScript v)⟩
  replies := ⟨replies.members.map fun (n, v) => (n, v.items.map (reply n))⟩

/-- How detections are polled. -/
def polling (v : Value) : Polling.Settings :=
  ⟨(v.part "base_ms").countOr 1000, (v.part "max_ms").countOr 5000, (v.part "threshold").countOr 3,
    (v.part "timeout_ms").countOr 5000⟩

/-- How streams are played. -/
def sessions (v : Value) : Player.Settings :=
  ⟨(v.part "refresh_ms").countOr 30000, (v.part "retry_ms").countOr 1000,
    (v.part "autoplay").flagOr true, (v.part "touch").flag⟩

/-- A cue for the stage; what is no other word lets time pass. -/
def cue (v : Value) : Cue :=
  let name := (v.nth 1).word
  match (v.nth 0).word with
  | "attach" => .attach name
  | "teardown" => .teardown name
  | "teardown_all" => .teardownAll
  | "replace" => .replace name
  | "play" => .play name
  | "fatal" => match (v.nth 2).word? with
      | some message => .fatal name message
      | none => .fatal "" name
  | "present" => .present name
  | "enable" => .enable name
  | "disable" => .disable name
  | "disable_all" => .disableAll
  | "streams" => .setStreams ((v.nth 1).items.map stream)
  | "layout" => .setLayout (layout (v.nth 1))
  | "select" => .select name
  | "step" => .step (v.nth 1).whole
  | "detections" => .showDetections (v.nth 1).flag
  | "restart" => .restart
  | "reconcile" => .reconcile
  | "shutdown" => .shutdown
  | _ => .sleep (v.nth 1).count

-- =========================================================== servers

mutual

/-- A value whose members are in the order of their names. -/
def ordered : Value → Value
  | .array l => .array (orderedItems l)
  | .object l => .object ((orderedMembers l).mergeSort fun a b => !(b.1 < a.1))
  | v => v

/-- Items that are ordered inside. -/
def orderedItems : List Value → List Value
  | [] => []
  | v :: rest => ordered v :: orderedItems rest

/-- Members that are ordered inside. -/
def orderedMembers : List (String × Value) → List (String × Value)
  | [] => []
  | (k, v) :: rest => (k, ordered v) :: orderedMembers rest

end

/-- The body of a reply: bytes, or a value, or a text. -/
def body (v : Value) : List UInt8 :=
  match v.part "hex", v.get? "json" with
  | .null, some value => Text.Utf8.encode (ordered value).render
  | .null, none => Text.Utf8.encode (v.part "text").word.toList
  | digits, _ => bytes digits

/-- A reply of a server. -/
def scriptedReply (v : Value) : ScriptedReply :=
  ⟨(v.part "status").countOr 200, body v, (v.part "delay_ms").count, (v.part "drop").flag⟩

/-- The replies of a server, by request line. -/
def routes (v : Value) : ByName (List ScriptedReply) :=
  ⟨v.members.map fun (line, replies) => (line, replies.items.map scriptedReply)⟩

-- ========================================================= the screen

/-- A key: its character, or its name. -/
def key (name : String) : Key :=
  match name, name.toList with
  | "esc", _ => .escape
  | "enter", _ => .enter
  | "left", _ => .left
  | "right", _ => .right
  | "up", _ => .up
  | "down", _ => .down
  | "pgup", _ => .pageUp
  | "pgdn", _ => .pageDown
  | _, [c] => .char c
  | _, _ => .other

/-- A severity, by its short name. -/
def severity : String → Severity
  | "ok" => .success
  | "warn" => .warning
  | "error" => .error
  | _ => .info

/-- A phase, by its name. -/
def phase? : String → Option Player.Phase
  | "Attaching" => some .attaching
  | "Playing" => some .playing
  | "AwaitingUser" => some .awaitingUser
  | "Recovering" => some .recovering
  | "Failed" => some .failed
  | _ => none

/-- Detections with their boxes. -/
def detections (v : Value) : List Recorder.Detection :=
  v.items.map fun d => (Recorder.Detection.reading.ofValue d).toOption.getD default

/-- A frame that somebody writes to an element. -/
def frame (v : Value) : Element.Write :=
  .frame (v.part "width").count (v.part "height").count (bytes (v.part "rgb")).toArray

/-- The address that a list of streams is asked for at. -/
def listAddress : String := "http://nvr.local:8080/api/streams"

/-- A cue for the screen; what is no other word asks for the requests. -/
def screenCue (v : Value) : ScreenCue :=
  let name := (v.nth 1).word
  match (v.nth 0).word with
  | "key" => .key (key name)
  | "reload" => .reload
  | "load" => .load (.ok ((v.nth 1).items.map stream))
  | "load_status" => .load (.error (.status listAddress (v.nth 1).count))
  | "source" => .source name
  | "frame" => .write name (frame (v.nth 2))
  | "playing" => .write name (.playing ((v.nth 2).part "muted").flag)
  | "error" => .write name (.error (v.nth 2).word)
  | "prompt" => .write name .playPrompt
  | "status" => .write name (.status (v.nth 2).word)
  | "detections" => .feed name (.ok (detections (v.nth 2))) 0
  | "poll_error" => .feed name (.error (v.nth 2).word) (v.nth 3).count
  | "toast" => .toast (severity name) (v.nth 2).word
  | "draw" => .draw (v.nth 1).count (v.nth 2).count (v.nth 3).flag
  | "shutdown" => .shutdown
  | "await_load" => .awaitLoad
  | "await_toast" => .awaitToast (key name)
  | "await_feed" => .awaitFeed name
  | _ => .requests

end Notation

namespace Account

open Console Polling Terminal

-- =========================================================== the wall

/-- What is shown on top of an element. -/
def overlay : TileOverlay → Value
  | .none => .text "none"
  | .playPrompt => .text "play_prompt"
  | .error message => .object [("error", .text message)]

/-- A width and a height. -/
def size (s : Nat × Nat) : Value := .array [.nat s.1, .nat s.2]

/-- An element, as it stands. -/
def element (e : Element) : Value :=
  .object
    [ ("source", .ofOption (fun u => .text (Url.toText u)) e.source),
      ("epoch", .nat e.epoch),
      ("frame_seq", .nat e.frameSeq),
      ("native", .ofOption size e.native?),
      ("playing", .bool e.playing),
      ("muted", .bool e.muted),
      ("overlay", overlay e.overlay),
      ("status", .text e.status) ]

/-- A feed, of which the labels are told. -/
def feed (f : Feed) : List (String × Value) :=
  [ ("generation", .nat f.generation),
    ("labels", .array (f.detections.map fun d => .text d.label)),
    ("errors", .nat f.errors),
    ("last_error", .ofOption .text f.lastError) ]

/-- A view, with its layout as it is saved. -/
def view (v : View) : Value :=
  .object
    [ ("layout", .text v.layout.toJson.compact),
      ("page", .nat v.page),
      ("selected", .ofOption .text v.selected),
      ("show_detections", .bool v.showDetections) ]

/-- The name of a phase. -/
def phaseName : Player.Phase → String
  | .attaching => "Attaching"
  | .playing => "Playing"
  | .awaitingUser => "AwaitingUser"
  | .recovering => "Recovering"
  | .failed => "Failed"

/-- The phase of a stream's session, if it has one. -/
def phase (s : Stage) (stream : String) : Value :=
  .ofOption (fun p => .text (phaseName p)) (s.wall.players.phase? stream)

/-- The session of a stream, and its log. -/
def session (s : Stage) (stream : String) : List (String × Value) :=
  [ ("attached", .bool (s.wall.players.isAttached stream)),
    ("phase", phase s stream),
    ("log", .array ((s.logOf stream).map .text)) ]

/-- How many engines were created and disposed. -/
def engines (s : Stage) : List (String × Value) :=
  [("created", .nat s.created), ("disposed", .nat s.disposed)]

/-- How often detections of a stream were asked for. -/
def calls (s : Stage) (stream : String) : Value := .nat (s.fetched.count stream)

-- ========================================================= the screen

/-- A colour as digit pairs. -/
def color (c : Raster.Rgb) : Value := .text (Text.Hex.ofBytes [c.r, c.g, c.b])

/-- A colour of a cell; the terminal's own is `reset`. -/
def cellColor (c : Option Raster.Rgb) : Value := (c.map color).getD (.text "reset")

/-- A line, as pieces of one style each. -/
def line (l : Line) : Value :=
  .array (l.map fun s =>
    .array [.text s.text, .ofOption color s.style.color, .bool s.style.bold])

/-- Whether two cells look alike. -/
def alike (a b : Cell) : Bool := a.color = b.color && a.ground = b.ground && a.bold = b.bold

/-- The text in some cells. -/
def cellText (l : List Cell) : String := String.join (l.map (·.text))

/-- Cells that look alike. -/
def cellRun (l : List Cell) : Value :=
  let c := l.headD {}
  .array [.text (cellText l), cellColor c.color, cellColor c.ground, .bool c.bold]

/-- The rows of a screen, with or without their styles. -/
def rows (b : Buffer) (styled : Bool) : Value :=
  .array (b.rows.map fun row =>
    if styled then .array ((row.splitBy alike).map cellRun) else .text (cellText row))

-- ============================================================= state

/-- How far the list of streams has got. -/
def load : Load → Value
  | .loading => .text "loading"
  | .ready => .text "ready"
  | .failed message => .object [("failed", .text message)]

/-- The names of a table in order. -/
def sortedNames {α : Type} (t : ByName α) : Value :=
  .array ((t.names.mergeSort Polling.Poller.namesInOrder).map .text)

/-- A toast, with its severity in front. -/
def toast (t : Toast) : Value := .array [.text t.severity.tag, .text t.message]

/-- Requests, in the order of their lines. -/
def requests (l : List Recorder.Request) : Value :=
  let pairs := l.map fun r => (Server.lineOf r, r.body.getD "")
  let sorted := pairs.mergeSort fun a b => a.1 < b.1 || (a.1 == b.1 && !(b.2 < a.2))
  .array (sorted.map fun (line, body) => .array [.text line, .text body])

/-- What a cue gave. -/
def told : Told → List (String × Value)
  | .nothing => []
  | .response quits => [("result", .text (if quits then "Quit" else "None"))]
  | .accepted yes => [("result", .bool yes)]
  | .screen b styled => [("result", rows b styled)]
  | .requests l => [("result", requests l)]

/-- The live screen. -/
def console (c : Console) (now : Nat) : List (String × Value) :=
  let w := c.wall
  [ ("cursor", .nat c.cursor),
    ("layout", .text w.view.layout.label),
    ("selected", .ofOption .text w.view.selected),
    ("page", .nat w.view.page),
    ("show_detections", .bool w.view.showDetections),
    ("visible", .array (w.visible.map .text)),
    ("restore", .ofOption (fun l => .text (Wall.Layout.label l)) c.restore),
    ("load", load c.load),
    ("pending", .bool c.pending.isSome),
    ("focus", .ofOption .text c.selected?),
    ("video", sortedNames c.video),
    ("overlays", sortedNames c.overlays),
    ("toasts", .array ((c.toasts.visibleAt now).queue.map toast)) ]

/-- Performs a cue, and tells what came of it. -/
def screenStep (t : ScreenTrial) (cue : ScreenCue) : ScreenTrial × Value :=
  let (t, result) := t.perform cue
  (t, .object (console t.console t.now ++ told result))

end Account

end VideoWall.Rehearsal
