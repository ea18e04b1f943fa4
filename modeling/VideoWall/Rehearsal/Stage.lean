/-
A rehearsal of the wall: scripted engines and detections on a virtual
clock. Time moves only when it is told to. At each instant everything
that is ready runs until nothing is: sessions on their way out first,
then sessions and polling tasks in the order in which they were started.

A script says how engines, addresses and detection requests turn out, in
order. Every queue answers one request after the other and succeeds once
it has run dry.
-/
import VideoWall.Recorder.Failure
import VideoWall.Url.Parser
import VideoWall.Wall.Calculation

namespace VideoWall.Rehearsal

open Numeral Recorder Player Polling Wall

-- ============================================================ scripts

/-- How a request turns out, and after how many milliseconds. -/
structure Outcome where
  succeeds : Bool := true
  delay : Nat := 0
  deriving DecidableEq, Repr, Inhabited

/-- What is still to happen to the engines of a stream. -/
structure StreamScript where
  attach : List Outcome := []
  play : List Outcome := []
  sources : List Outcome := []
  deriving DecidableEq, Repr, Inhabited

/-- How a request for detections is answered. -/
structure Reply where
  outcome : Except Failure (List Detection)
  delay : Nat := 0

/-- A script. Streams may have scripts of their own or share one. -/
structure Script where
  supported : Bool := true
  shared : Bool := false
  create : List Outcome := []
  streams : ByName StreamScript := {}
  replies : ByName (List Reply) := {}
  otherwise : List Detection := []
  deriving Inhabited

namespace Script

/-- The name that the script of a stream goes by. -/
def key (s : Script) (stream : String) : String := if s.shared then "" else stream

/-- The script of a stream; one that has run dry succeeds in everything. -/
def stream (s : Script) (name : String) : StreamScript := (s.streams.get? (s.key name)).getD {}

/-- Changes what is still to happen to a stream. -/
def withStream (s : Script) (name : String) (f : StreamScript → StreamScript) : Script :=
  { s with streams := s.streams.set (s.key name) (f (s.stream name)) }

/-- The reply to the next request for detections of a stream; the last
one is given again and again. -/
def reply (s : Script) (name : String) : Reply :=
  (((s.replies.get? name).getD []).head?).getD ⟨.ok s.otherwise, 0⟩

/-- The script after a request for detections. -/
def afterReply (s : Script) (name : String) : Script :=
  match s.replies.get? name with
  | some (_ :: r :: rest) => { s with replies := s.replies.set name (r :: rest) }
  | _ => s

end Script

-- ============================================================== stage

/-- A scripted engine. `channel` is its channel for a fatal message,
which has room for one, while it is open; `pending` is the result of the
call in progress and when it comes. -/
structure Engine where
  stream : String
  channel : Option (Option String) := none
  pending : Option (Nat × Except String Unit) := none
  deriving Inhabited

/-- The stage. Engines are numbered in the order of their creation;
`newest` is the engine that attached last, by script. -/
structure Stage where
  now : Nat := 0
  wall : Controller := {}
  script : Script := {}
  engines : Array Engine := #[]
  disposed : Nat := 0
  newest : ByName EngineId := {}
  issued : ByName Nat := {}
  log : List (String × String) := []
  sources : List Url := []
  mutes : List Bool := []
  fetched : List String := []
  answers : ByName (Nat × Except String (List Detection)) := {}
  deriving Inhabited

/-- What the director may tell the wall to do. -/
inductive Cue where
  | attach (stream : String)
  | teardown (stream : String)
  | teardownAll
  | replace (stream : String)
  | play (stream : String)
  | fatal (stream message : String)
  | present (stream : String)
  | enable (stream : String)
  | disable (stream : String)
  | disableAll
  | setStreams (streams : List Stream)
  | setLayout (layout : Layout)
  | select (stream : String)
  | step (delta : Int)
  | showDetections (shown : Bool)
  | restart
  | reconcile
  | shutdown
  | sleep (ms : Nat)

namespace Stage

/-- How many engines there have been. -/
def created (s : Stage) : Nat := s.engines.size

/-- How many addresses were issued under the script of a stream. -/
def issuedFor (s : Stage) (stream : String) : Nat :=
  (s.issued.get? (s.script.key stream)).getD 0

/-- Writes to the log of a stream. -/
def note (s : Stage) (stream line : String) : Stage := { s with log := s.log ++ [(stream, line)] }

-- ========================================================== supplies

/-- The address that is issued for a stream, so many times. -/
def address (stream : String) (number : Nat) : Except String Url :=
  (Url.parse ("http://nvr/hls/" ++ stream ++ "/index.m3u8?_t=" ++ toString number).toList).mapError
    Url.ParseError.message

/-- What a session of a stream is given, should it ask. -/
def supply (s : Stage) (stream : String) : Supply where
  source :=
    if ((s.script.stream stream).sources.headD {}).succeeds then
      address stream (s.issuedFor stream + 1)
    else .error "no source URL"
  engine :=
    if (s.script.create.headD {}).succeeds then .ok s.engines.size
    else .error "engine unavailable"

/-- Starts a call that comes back as scripted. -/
def schedule (s : Stage) (engine : EngineId) (outcome : Outcome) (failure : String) : Stage :=
  let result := if outcome.succeeds then .ok () else .error failure
  { s with
    engines := s.engines.modify engine fun e =>
      { e with pending := some (s.now + outcome.delay, result) } }

/-- What comes of a call of a session. -/
def answer (stream : String) (s : Stage) : Call → Stage
  | .source answer =>
      let script := s.script.withStream stream fun t => { t with sources := t.sources.tail }
      match answer with
      | .ok _ =>
          { s with
            script
            issued := s.issued.set (s.script.key stream) (s.issuedFor stream + 1) }
      | .error _ => { s with script }.note stream "url refused"
  | .create answer =>
      let s := { s with script := { s.script with create := s.script.create.tail } }
      match answer with
      | .ok _ => { s with engines := s.engines.push { stream } }
      | .error _ => s
  | .attach engine epoch url =>
      let outcome := (s.script.stream stream).attach.headD {}
      let s :=
        { s with
          script := s.script.withStream stream fun t => { t with attach := t.attach.tail }
          engines := s.engines.modify engine fun e => { e with channel := some none }
          newest := s.newest.set (s.script.key stream) engine
          sources := s.sources ++ [url] }
      (s.schedule engine outcome "manifest unavailable").note stream
        ("attach epoch=" ++ toString epoch ++ " " ++ url.toText)
  | .play engine muted =>
      let outcome := (s.script.stream stream).play.headD {}
      let s :=
        { s with
          script := s.script.withStream stream fun t => { t with play := t.play.tail }
          mutes := s.mutes ++ [muted] }
      (s.schedule engine outcome "play rejected").note stream ("play muted=" ++ toString muted)
  | .dispose engine =>
      { s with
        disposed := s.disposed + 1
        engines := s.engines.modify engine fun e => { e with channel := none, pending := none }
      }.note stream "dispose"

-- =========================================================== signals

/-- The result of an engine's call, once it has come. -/
def result? (s : Stage) (engine : EngineId) : Option (Except String Unit) := do
  let e ← s.engines[engine]?
  let (due, result) ← e.pending
  if due ≤ s.now then some result else none

/-- The fatal message in an engine's channel. -/
def fatal? (s : Stage) (engine : EngineId) : Option String := do
  let e ← s.engines[engine]?
  (← e.channel)

/-- The signal that a session has to act on now. -/
def sessionSignal? (s : Stage) (x : Session) : Option Player.Signal :=
  match x.point with
  | .fresh => some .begins
  | .building _ engine => (s.result? engine).map .attached
  | .refreshing => (x.engine.bind s.result?).map .attached
  | .starting _ _ => (x.engine.bind s.result?).map .played
  | .pausing _ due => if due ≤ s.now then some .pauseOver else none
  | .resting =>
      if x.wishes > 0 then some .wish
      else if x.phase = .playing then
        match x.engine.bind s.fatal? with
        | some message => some (.fatal message)
        | none => if x.refreshAt.any (· ≤ s.now) then some .refreshDue else none
      else none
  | .over => none

/-- The signal that the polling task of a stream has to act on now. -/
def taskSignal? (s : Stage) (stream : String) (t : Task) : Option Polling.Signal :=
  match t.point with
  | .fresh => some .begins
  | .asking since =>
      let answered := (s.answers.get? stream).filter (·.1 ≤ s.now)
      match answered with
      | some (_, outcome) => some (.answered outcome)
      | none =>
          if since + s.wall.poller.settings.requestTimeout ≤ s.now then some .timedOut else none
  | .waiting due => if due ≤ s.now then some .intervalOver else none
  | .over | .crashed => none

-- ============================================================= steps

/-- Takes what a signal used up. -/
def consume (s : Stage) (x : Session) : Player.Signal → Stage
  | .attached _ | .played _ =>
      let engine? := match x.point with
        | .building _ engine => some engine
        | _ => x.engine
      match engine? with
      | none => s
      | some engine =>
          { s with engines := s.engines.modify engine fun e => { e with pending := none } }
  | .fatal _ =>
      match x.engine with
      | none => s
      | some engine =>
          { s with
            engines := s.engines.modify engine fun e =>
              { e with channel := e.channel.map fun _ => none } }
  | _ => s

/-- Gives a signal to the session of a stream, and answers what it calls. -/
def stepSession (s : Stage) (stream : String) (x : Session) (signal : Player.Signal) :
    Option Stage := do
  let (players, calls) ← s.wall.players.step? (s.supply stream) s.now stream signal
  pure (calls.foldl (answer stream) { s.consume x signal with wall.players := players })

/-- Gives a signal to the polling task of a stream. A task that asks
takes the next reply. -/
def stepTask (s : Stage) (stream : String) (signal : Polling.Signal) : Option Stage := do
  let poller ← s.wall.poller.step? s.now stream signal
  let s := { s with wall.poller := poller }
  let t ← poller.tasks.get? stream
  match t.point with
  | .asking _ =>
      let reply := s.script.reply stream
      pure
        { s with
          script := s.script.afterReply stream
          fetched := s.fetched ++ [stream]
          answers := s.answers.set stream
            (s.now + reply.delay, reply.outcome.mapError Failure.message) }
  | _ => pure s

/-- Ends the session that has been on its way out for longest. The
engine that it was still attaching is dropped. -/
def depart? (s : Stage) : Option Stage := do
  let (_, x) ← s.wall.players.departing.head?
  let (players, calls) ← s.wall.players.depart?
  let s := { s with wall.players := players }
  let held := match x.point with
    | .building _ engine => some engine
    | _ => x.engine
  match held with
  | none => pure s
  | some engine =>
      let stream := (s.engines.getD engine default).stream
      let s := { s with engines := s.engines.modify engine fun e => { e with channel := none } }
      pure (calls.foldl (answer stream) s)

/-- One step of something that is ready, if anything is. -/
def advance? (s : Stage) : Option Stage :=
  match s.depart? with
  | some s => some s
  | none =>
      let session? := s.wall.players.sessions.entries.findSome? fun (stream, x) =>
        (s.sessionSignal? x).bind (s.stepSession stream x)
      match session? with
      | some s => some s
      | none =>
          s.wall.poller.tasks.entries.findSome? fun (stream, t) =>
            (s.taskSignal? stream t).bind (s.stepTask stream)

/-- Runs everything that is ready now, for at most `fuel` steps. -/
def settleWithin : (fuel : Nat) → Stage → Stage
  | 0, s => s
  | fuel + 1, s =>
      match s.advance? with
      | none => s
      | some s => settleWithin fuel s

/-- The most steps of one instant. -/
def patience : Nat := 100000

/-- Runs everything that is ready now. -/
def settle (s : Stage) : Stage := s.settleWithin patience

-- ============================================================== time

/-- The instants at which a session acts by itself. -/
def sessionTimes (s : Stage) (x : Session) : List Nat :=
  let pending (engine : EngineId) : List Nat :=
    ((s.engines[engine]?).bind fun e => e.pending.map (·.1)).toList
  match x.point with
  | .building _ engine => pending engine
  | .refreshing | .starting _ _ => x.engine.toList.flatMap pending
  | .pausing _ due => [due]
  | .resting => if x.phase = .playing then x.refreshAt.toList else []
  | .fresh | .over => []

/-- The instants at which a polling task acts by itself. -/
def taskTimes (s : Stage) (stream : String) (t : Task) : List Nat :=
  match t.point with
  | .asking since =>
      (since + s.wall.poller.settings.requestTimeout) :: ((s.answers.get? stream).map (·.1)).toList
  | .waiting due => [due]
  | .fresh | .over | .crashed => []

/-- The next instant up to `limit` at which something happens. -/
def nextTime? (s : Stage) (limit : Nat) : Option Nat :=
  let times :=
    s.wall.players.sessions.entries.flatMap (fun (_, x) => s.sessionTimes x)
      ++ s.wall.poller.tasks.entries.flatMap (fun (stream, t) => s.taskTimes stream t)
  (times.filter fun t => s.now < t && t ≤ limit).min?

/-- Lets time pass until `limit`, from one event to the next. -/
def runUntil (limit : Nat) : (fuel : Nat) → Stage → Stage
  | 0, s => s
  | fuel + 1, s =>
      match s.nextTime? limit with
      | none => { s with now := limit }.settle
      | some t => runUntil limit fuel { s with now := t }.settle

/-- Lets some time pass. -/
def sleep (ms : Nat) (s : Stage) : Stage := s.runUntil (s.now + ms) patience

-- ============================================================= cues

/-- Puts a fatal message into the newest channel, if it has room. -/
def sendFatal (stream message : String) (s : Stage) : Stage :=
  match s.newest.get? (s.script.key stream) with
  | none => s
  | some engine =>
      { s with
        engines := s.engines.modify engine fun e =>
          { e with channel := e.channel.map fun c => some (c.getD message) } }

/-- A small grey picture for the current epoch of an element. -/
def presentFrame (stream : String) (players : Registry) : Registry :=
  let bytes := Array.replicate 12 0
  players.write stream (players.element stream).epoch (.frame 2 2 bytes)

/-- Changes the players. -/
def withPlayers (f : Registry → Registry) (s : Stage) : Stage :=
  { s with wall.players := f s.wall.players }

/-- Changes the poller. -/
def withPoller (f : Poller → Poller) (s : Stage) : Stage :=
  { s with wall.poller := f s.wall.poller }

/-- Performs a cue; what is ready then has yet to run. -/
def perform (s : Stage) : Cue → Stage
  | .attach stream => s.withPlayers (·.attach stream)
  | .teardown stream => s.withPlayers (·.teardown stream)
  | .teardownAll => s.withPlayers (·.teardownAll)
  | .replace stream => s.withPlayers (·.replace stream)
  | .play stream => s.withPlayers (·.requestPlay stream)
  | .fatal stream message => s.sendFatal stream message
  | .present stream => s.withPlayers (presentFrame stream)
  | .enable stream => s.withPoller (·.enable stream)
  | .disable stream => s.withPoller (·.disable stream)
  | .disableAll => s.withPoller (·.disableAll)
  | .setStreams streams => { s with wall := s.wall.setStreams streams }
  | .setLayout layout => { s with wall := s.wall.setLayout layout }
  | .select stream => { s with wall := s.wall.select stream }
  | .step delta => { s with wall := s.wall.stepPage delta }
  | .showDetections shown => { s with wall := s.wall.setShowDetections shown }
  | .restart => { s with wall := s.wall.restartVisible }
  | .reconcile => { s with wall := s.wall.reconcile }
  | .shutdown => { s with wall := s.wall.shutdown }
  | .sleep ms => s.sleep ms

/-- Performs a cue and everything that is ready after it. The log begins
anew with each cue. -/
def play (s : Stage) (cue : Cue) : Stage := ({ s with log := [] }.perform cue).settle

/-- Performs a cue, unless a calculation of the wall is stopped. -/
def performChecked (s : Stage) (cue : Cue) : Word.Checked Stage :=
  let changed (wall : Word.Checked Controller) := wall.map fun wall => { s with wall }
  match cue with
  | .setStreams streams => changed (Calculation.setStreams s.wall streams)
  | .setLayout layout => changed (Calculation.setLayout s.wall layout)
  | .select stream => changed (Calculation.select s.wall stream)
  | .step delta => changed (Calculation.stepPage s.wall delta)
  | .showDetections shown => changed (Calculation.setShowDetections s.wall shown)
  | .reconcile => changed (Calculation.reconcile s.wall)
  | cue => pure (s.perform cue)

/-- Performs a cue and everything that is ready after it, as `play` does,
unless a calculation is stopped. -/
def playChecked (s : Stage) (cue : Cue) : Word.Checked Stage := do
  pure (← { s with log := [] }.performChecked cue).settle

/-- The lines that a stream's log has gained. -/
def logOf (s : Stage) (stream : String) : List String :=
  (s.log.filter (·.1 == stream)).map (·.2)

end Stage

/-- A stage on which nothing has happened. -/
def Stage.opened (script : Script) (playing : Player.Settings) (polling : Polling.Settings)
    (view : View) : Stage where
  script
  wall :=
    { players := { settings := playing, supported := script.supported }
      poller := { settings := polling }
      view }

end VideoWall.Rehearsal
