/-
The session of a stream on screen. It owns a playback engine, builds it
against a fresh source, starts it, re-issues the source at intervals and
recovers from fatal errors; and it shows all that on the media element.

# The machine

A session runs from one point of waiting to the next without a break,
so it is a machine whose points are the places where it waits and whose
signals are what it waits for. One step takes a signal, the time, and
the answers of the outside to the two things a session asks of it: a
source address and a new engine. It gives the new session, the new
element and the calls that were made, in order.

- An engine is built for a first or second start, for the user's wish to
  play, or for a recovery. Only the first start may fail without harm:
  it is tried again after a pause.
- An engine that attached is told to play, unless the session starts
  without autoplay. What refuses to play waits for the user.
- At rest a playing session listens to three sources: the user, the
  engine's fatal errors, and the refresh clock. One that waits for the
  user or has failed listens to the user alone.

A cancelled session drops what it waits for and disposes the engine in
its hand; an engine that is still being attached is not in its hand yet.

# The end of the clock

The refresh clock is set to a date, and not every date is one that the
clock can tell. A session that would set it to any other crashes: it ends
on the spot, and its engine is dropped as it is.
-/
import VideoWall.Clock
import VideoWall.Media.Element

namespace VideoWall.Player

open Media

-- ============================================================ phases

/-- What the tile shows of a session's progress. -/
inductive Phase where
  | attaching
  | playing
  | awaitingUser
  | recovering
  | failed
  deriving DecidableEq, Repr, Inhabited

/-- How sessions play. Times are in milliseconds. -/
structure Settings where
  refreshInterval : Nat := 30000
  retryDelay : Nat := 1000
  autoplay : Bool := true
  touchCapable : Bool := false
  deriving DecidableEq, Repr, Inhabited

/-- Whether a stream that starts by itself is muted. -/
def Settings.autoplayMuted (s : Settings) : Bool := s.touchCapable

-- ============================================================ points

/-- Engines are told apart by a number. -/
abbrev EngineId := Nat

/-- What an engine is built for. -/
inductive Purpose where
  | firstStart
  | secondStart
  | userPlay
  | recovery
  deriving DecidableEq, Repr

/-- What an engine is told to play for: `resume` is the user's wish to
play on the engine at hand. -/
inductive Attempt where
  | autoplay
  | resume
  | userPlay
  | recovery
  | refresh
  deriving DecidableEq, Repr

/-- What a pause comes before. -/
inductive Pause where
  | secondStart
  | recovery
  deriving DecidableEq, Repr

/-- Where a session waits. -/
inductive Point where
  | fresh
  | building (why : Purpose) (engine : EngineId)
  | pausing (why : Pause) (due : Nat)
  | refreshing
  | starting (why : Attempt) (muted : Bool)
  | resting
  | over
  deriving DecidableEq, Repr, Inhabited

/-- A session. `refreshAt` is when the source is to be re-issued next,
once the session has come to rest for the first time; `restarts` says
that the refresh clock begins anew when the session comes to rest; and
`wishes` counts the user's wishes to play that have not been heard. -/
structure Session where
  serial : Nat := 0
  point : Point := .fresh
  phase : Phase := .attaching
  epoch : Nat := 0
  engine : Option EngineId := none
  refreshAt : Option Nat := none
  restarts : Bool := false
  wishes : Nat := 0
  deriving DecidableEq, Repr, Inhabited

/-- What a session waits for. An engine that starts to play says so to
the element in the same moment in which it says so to the session. -/
inductive Signal where
  | begins
  | attached (outcome : Except String Unit)
  | played (outcome : Except String Unit)
  | pauseOver
  | wish
  | fatal (message : String)
  | refreshDue

/-- The answers of the outside, should they be asked for. -/
structure Supply where
  source : Except String Url
  engine : Except String EngineId

/-- What a session asks or tells the outside. -/
inductive Call where
  | source (answer : Except String Url)
  | create (answer : Except String EngineId)
  | attach (engine : EngineId) (epoch : Nat) (url : Url)
  | play (engine : EngineId) (muted : Bool)
  | dispose (engine : EngineId)

/-- A session on its element, and the calls of the step so far. -/
structure Move where
  session : Session
  element : Element
  calls : List Call := []

-- ============================================================= moves

namespace Move

/-- One more call. -/
def call (c : Call) (m : Move) : Move := { m with calls := m.calls ++ [c] }

/-- The session is in another phase. -/
def enter (p : Phase) (m : Move) : Move := { m with session.phase := p }

/-- The session waits at another point. -/
def goto (p : Point) (m : Move) : Move := { m with session.point := p }

/-- Writes to the element for the epoch of the session. -/
def write (w : Element.Write) (m : Move) : Move :=
  { m with element := m.element.after m.session.epoch w }

/-- Disposes the engine in hand, if there is one. -/
def dispose (m : Move) : Move :=
  match m.session.engine with
  | none => m
  | some engine => { m with session.engine := none }.call (.dispose engine)

/-- Comes to rest. The refresh clock starts at the first rest and begins
anew after a wish of the user and a fatal error. -/
def rest (cfg : Settings) (now : Nat) (m : Move) : Move :=
  let next :=
    if m.session.restarts ∨ m.session.refreshAt = none then some (now + cfg.refreshInterval)
    else m.session.refreshAt
  { m with
    session.point := .resting, session.refreshAt := next, session.restarts := false }

/-- Offers the play affordance and comes to rest. -/
def awaitUser (cfg : Settings) (now : Nat) (m : Move) : Move :=
  ((m.write .playPrompt).enter .awaitingUser).rest cfg now

/-- Shows an error and comes to rest. -/
def fail (cfg : Settings) (now : Nat) (message : String) (m : Move) : Move :=
  ((m.dispose.write (.error message)).enter .failed).rest cfg now

/-- A build that did not come about. The first start is tried again. -/
def buildFailed (cfg : Settings) (now : Nat) (message : String) (why : Purpose) (m : Move) :
    Move :=
  match why with
  | .firstStart => m.goto (.pausing .secondStart (now + cfg.retryDelay))
  | _ => m.fail cfg now message

/-- Builds an engine against a fresh source, after the one in hand. -/
def build (cfg : Settings) (supply : Supply) (now : Nat) (why : Purpose) (m : Move) : Move :=
  let m := m.dispose.call (.source supply.source)
  match supply.source with
  | .error message => m.buildFailed cfg now message why
  | .ok url =>
      let m := m.call (.create supply.engine)
      match supply.engine with
      | .error message => m.buildFailed cfg now message why
      | .ok engine =>
          let element := m.element.setSource url
          let m := { m with element, session.epoch := element.epoch }
          (m.call (.attach engine element.epoch url)).goto (.building why engine)

/-- Tears the engine down and builds another one after a pause. -/
def recover (cfg : Settings) (now : Nat) (message : String) (m : Move) : Move :=
  let m := (m.enter .recovering).write (.status ("reconnecting: " ++ message))
  m.dispose.goto (.pausing .recovery (now + cfg.retryDelay))

/-- What follows a call to play. What the user wished for on an engine that
refuses is wished for on a new one; a refresh that is refused is a fatal error.
-/
def afterPlay (cfg : Settings) (supply : Supply) (now : Nat) (why : Attempt)
    (outcome : Except String Unit) (m : Move) : Move :=
  match outcome, why with
  | .ok _, .refresh => m.rest cfg now
  | .ok _, _ => (m.enter .playing).rest cfg now
  | .error _, .resume => (m.enter .attaching).build cfg supply now .userPlay
  | .error message, .refresh => m.recover cfg now message
  | .error _, _ => m.awaitUser cfg now

/-- Tells the engine in hand to play. -/
def start (cfg : Settings) (supply : Supply) (now : Nat) (why : Attempt) (muted : Bool)
    (m : Move) : Move :=
  match m.session.engine with
  | some engine => (m.call (.play engine muted)).goto (.starting why muted)
  | none => m.afterPlay cfg supply now why (.error "no engine attached")

/-- What follows a build that came about. -/
def built (cfg : Settings) (supply : Supply) (now : Nat) (why : Purpose) (m : Move) : Move :=
  match why with
  | .firstStart | .secondStart =>
      if cfg.autoplay then m.start cfg supply now .autoplay cfg.autoplayMuted
      else m.awaitUser cfg now
  | .userPlay => m.start cfg supply now .userPlay false
  | .recovery => m.start cfg supply now .recovery cfg.autoplayMuted

/-- What the user's wish to play comes to. -/
def userPlay (cfg : Settings) (supply : Supply) (now : Nat) (m : Move) : Move :=
  match m.session.phase with
  | .playing => m.rest cfg now
  | .awaitingUser => m.start cfg supply now .resume false
  | _ => (m.enter .attaching).build cfg supply now .userPlay

/-- Re-issues the source on the running engine. When there is no source
to be had, this refresh is skipped. -/
def refresh (cfg : Settings) (supply : Supply) (now : Nat) (m : Move) : Move :=
  let m := m.call (.source supply.source)
  match supply.source, m.session.engine with
  | .ok url, some engine =>
      let element := m.element.refreshSource url
      let m := { m with element, session.epoch := element.epoch }
      (m.call (.attach engine element.epoch url)).goto .refreshing
  | _, _ => m.rest cfg now

end Move

-- ============================================================= steps

/-- How late a refresh may be and still keep its schedule. -/
def refreshTolerance : Nat := 5

/-- The refresh after one that was due at `due` and is made at `now`. A
late one is followed by a whole interval. -/
def nextRefresh (cfg : Settings) (due now : Nat) : Nat :=
  if due + refreshTolerance < now then now + cfg.refreshInterval else due + cfg.refreshInterval

namespace Session

/-- The step of a session on a signal, if it waits for that signal. -/
def step? (cfg : Settings) (supply : Supply) (now : Nat) (signal : Signal) (s : Session)
    (e : Element) : Option Move :=
  let m : Move := ⟨s, e, []⟩
  match s.point, signal with
  | .fresh, .begins => some ((m.enter .attaching).build cfg supply now .firstStart)
  | .building why engine, .attached outcome =>
      let m := { m with session.engine := some engine }
      match outcome with
      | .ok _ => some (m.built cfg supply now why)
      | .error message => some (m.buildFailed cfg now message why)
  | .pausing .secondStart due, .pauseOver =>
      if due ≤ now then some (m.build cfg supply now .secondStart) else none
  | .pausing .recovery due, .pauseOver =>
      if due ≤ now then some (m.build cfg supply now .recovery) else none
  | .refreshing, .attached (.ok _) =>
      some (m.start cfg supply now .refresh cfg.autoplayMuted)
  | .refreshing, .attached (.error message) => some (m.recover cfg now message)
  | .starting why muted, .played outcome =>
      let m := match outcome with
        | .ok _ => m.write (.playing muted)
        | .error _ => m
      some (m.afterPlay cfg supply now why outcome)
  | .resting, .wish =>
      if s.wishes = 0 then none
      else
        some ({ m with session.wishes := s.wishes - 1, session.restarts := true }.userPlay
          cfg supply now)
  | .resting, .fatal message =>
      if s.phase = .playing ∧ s.engine.isSome then
        some ({ m with session.restarts := true }.recover cfg now message)
      else none
  | .resting, .refreshDue =>
      match s.refreshAt with
      | none => none
      | some due =>
          if s.phase = .playing ∧ due ≤ now then
            some ({ m with session.refreshAt := some (nextRefresh cfg due now) }.refresh
              cfg supply now)
          else none
  | _, _ => none

/-- A session that is over. It holds no engine any more. -/
def ended (s : Session) : Session := { s with point := .over, engine := none }

/-- Ends a session that is cancelled, which disposes the engine in its hand. -/
def cancel (s : Session) : Session × List Call :=
  (s.ended, s.engine.toList.map Call.dispose)

/-- Whether the clock can tell when the source is to be re-issued next. -/
def InTime (s : Session) : Prop := ∀ due ∈ s.refreshAt, Clock.IsInstant due

instance (s : Session) : Decidable s.InTime :=
  inferInstanceAs (Decidable (∀ due ∈ s.refreshAt, Clock.IsInstant due))

/-- What comes of a step that would leave a session with a date that the clock
cannot tell. The refresh after one that is due is dated before that one is
made, and all other dates are set when everything else is done. -/
def crash (signal : Signal) (s : Session) (e : Element) (m : Move) : Move :=
  match signal with
  | .refreshDue => ⟨s.ended, e, []⟩
  | _ => { m with session := m.session.ended }

/-- What a session does when it is woken. Whether it is cancelled is looked
at before the signal, so that work that was ready too is not begun. -/
def act? (cancelled : Bool) (cfg : Settings) (supply : Supply) (now : Nat) (signal : Signal)
    (s : Session) (e : Element) : Option Move :=
  if cancelled then some ⟨s.cancel.1, e, s.cancel.2⟩
  else (s.step? cfg supply now signal e).map fun m =>
    if m.session.InTime then m else s.crash signal e m

/-- Whether a session has not ended. -/
def isRunning (s : Session) : Bool := s.point ≠ .over

end Session

end VideoWall.Player
