/-
A rehearsal of the live screen. Keys are pressed and the screen is drawn;
streams are written to as if somebody played them. What takes time waits
until it is waited for. Then all errands are run, one after the other,
and every stream that is polled asks for its detections.
-/
import VideoWall.Console.Drawing
import VideoWall.Console.Keys
import VideoWall.Files.Basic
import VideoWall.Rehearsal.Server

namespace VideoWall.Rehearsal

open Console Media Polling Recorder Terminal

/-- The live screen on trial: errands that wait, a server, and where
snapshots go. -/
structure ScreenTrial where
  console : Console
  server : Server := {}
  now : Nat := 0
  instant : Int := 0
  shots : String := ""
  waiting : List Errand := []

/-- What may be done with the screen. -/
inductive ScreenCue where
  | key (k : Key)
  | reload
  | load (outcome : Except Failure (List Stream))
  | source (stream : String)
  | write (stream : String) (w : Element.Write)
  | feed (stream : String) (outcome : Except String (List Detection)) (errors : Nat)
  | toast (severity : Severity) (text : String)
  | draw (width height : Nat) (styled : Bool)
  | shutdown
  | awaitLoad
  | awaitToast (k : Key)
  | awaitFeed (stream : String)
  | requests

/-- What is told about a cue. -/
inductive Told where
  | nothing
  | response (quits : Bool)
  | accepted (yes : Bool)
  | screen (b : Buffer) (styled : Bool)
  | requests (l : List Request)

namespace ScreenTrial

variable (t : ScreenTrial)

-- =========================================================== errands

/-- Takes a snapshot, which is saved nowhere: its path is what counts. -/
def takeSnapshot (stream : String) (element : Element) (detections : List Detection) :
    Except Report String :=
  match Snapshot.capture t.console.renderer stream element detections .jpeg t.instant with
  | .ok shot => .ok (Files.below t.shots shot.fileName)
  | .error f => .error (.plain f.message)

/-- Runs an errand. A load that was given up before it began asks for
nothing. -/
def run : Errand → ScreenTrial
  | .load serial =>
      if t.console.pending = some serial then
        let (outcome, server) := t.server.converse t.console.client.loadLiveStreams
        { t with server, console := t.console.loaded serial t.now outcome }
      else t
  | .snapshot stream element detections =>
      { t with
        console := t.console.snapshotTaken t.now (t.takeSnapshot stream element detections) }
  | .nudge camera direction =>
      let (outcome, server) := t.server.converse (camera.nudge direction)
      { t with server, console := t.console.nudged t.now outcome }
  | .home camera =>
      let (outcome, server) := t.server.converse camera.home
      { t with server, console := t.console.sentHome t.now camera.stream outcome }

/-- Whether an errand is run at once. -/
def isPrompt : Errand → Bool
  | .snapshot .. => true
  | _ => false

/-- Presses a key. Errands that need no server are run at once, others wait. -/
def press (k : Key) : ScreenTrial × Told :=
  match t.console.press t.now k with
  | (console, .quit) => ({ t with console }, .response true)
  | (console, .goOn errands) =>
      let t := (errands.filter isPrompt).foldl run { t with console }
      ({ t with waiting := t.waiting ++ errands.filter (!isPrompt ·) }, .response false)

-- =========================================================== polling

/-- The screen with another poller. -/
def withPoller (poller : Poller) : ScreenTrial := { t with console.wall.poller := poller }

/-- Gives a signal to the polling task of a stream, and then the answer
to what it asks. -/
def poll (stream : String) (signal : Polling.Signal) : ScreenTrial :=
  match t.console.wall.poller.step? t.now stream signal with
  | none => t
  | some poller =>
      let (found, server) := t.server.converse (t.console.client.detectionResults stream)
      let t := { t.withPoller poller with server }
      match poller.step? t.now stream (.answered (found.mapError Failure.message)) with
      | none => t
      | some poller => t.withPoller poller

/-- Where the polling task of a stream waits. -/
def point? (stream : String) : Option Point :=
  (t.console.wall.poller.tasks.get? stream).map fun task => task.point

/-- Lets the polling task of a stream ask, if it is time. -/
def pollIfDue (stream : String) : ScreenTrial :=
  match t.point? stream with
  | some .fresh => t.poll stream .begins
  | some (.waiting _) => t.poll stream .intervalOver
  | _ => t

/-- Runs all that waits. -/
def settle : ScreenTrial :=
  let t := t.waiting.foldl run { t with waiting := [] }
  t.console.wall.poller.enabledStreams.foldl pollIfDue t

/-- Lets time pass until a stream asks again, if it has asked. -/
def passInterval (stream : String) : ScreenTrial :=
  match t.point? stream with
  | some (.waiting due) => { t with now := max t.now due }
  | _ => t

-- ============================================================== cues

/-- Changes what a stream shows. -/
def withElement (stream : String) (f : Element → Element) : ScreenTrial :=
  let players := t.console.wall.players
  { t with
    console.wall.players.elements := players.elements.set stream (f (players.element stream)) }

/-- Performs a cue. -/
def perform : ScreenCue → ScreenTrial × Told
  | .key k => t.press k
  | .reload =>
      ({ t with
          console := t.console.reload, waiting := t.waiting ++ [.load t.console.loads] },
        .nothing)
  | .load outcome => ({ t with console := t.console.takeLoad t.now outcome }, .nothing)
  | .source stream => (t.withElement stream (·.setSource t.console.client.base), .nothing)
  | .write stream w =>
      let e := t.console.wall.players.element stream
      (t.withElement stream (·.after e.epoch w), .accepted (e.accepts e.epoch w))
  | .feed stream outcome errors =>
      let poller := t.console.wall.poller
      let feed := poller.feed stream
      let (feed, yes) := feed.apply feed.session outcome errors
      (t.withPoller { poller with feeds := poller.feeds.set stream feed }, .accepted yes)
  | .toast severity text => ({ t with console := t.console.say t.now severity text }, .nothing)
  | .draw width height styled =>
      let (console, b) := t.console.draw t.now width height
      ({ t with console }, .screen b styled)
  | .shutdown => ({ t with console.wall := t.console.wall.shutdown }, .nothing)
  | .awaitLoad => (t.settle, .nothing)
  | .awaitToast k =>
      let (t, told) := t.press k
      (t.settle, told)
  | .awaitFeed stream => ((t.passInterval stream).settle, .nothing)
  | .requests => (t, .requests t.server.asked.reverse)

end ScreenTrial

end VideoWall.Rehearsal
