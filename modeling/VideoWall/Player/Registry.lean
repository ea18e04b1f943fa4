/-
All player sessions, at most one for each stream name, and the media
elements they show their video on. An element stays when its session is
torn down, so that a tile can hold on to it.

A session that is torn down leaves the registry at once and its element
is detached at once. The session itself is then on its way out: all that
is left for it to do is to end, and it may take its time.

A session that crashes leaves its element as it is, and its stream counts
as not attached. The registry learns of it only when it is asked for the
stream again, and until then it goes on to tell the phase that the session
was in.
-/
import VideoWall.ByName
import VideoWall.Player.Session

namespace VideoWall.Player

open Media

/-- The registry. `ended` has the streams whose session crashed, each with the
phase that the session was in. `departing` are the sessions on their way out,
each with the name of its stream, the one that was torn down first in front. -/
structure Registry where
  settings : Settings := {}
  supported : Bool := true
  elements : ByName Element := {}
  sessions : ByName Session := {}
  ended : ByName Phase := {}
  departing : List (String × Session) := []
  attaches : Nat := 0
  deriving Inhabited

namespace Registry

/-- What is shown where nothing can decode video. -/
def unsupportedMessage : String :=
  "live playback is not supported: no H.264 decoder available"

/-- The element of a stream, an idle one before it is first used. -/
def element (r : Registry) (name : String) : Element := (r.elements.get? name).getD .idle

/-- Makes sure that a stream has an element of its own. -/
def withElement (r : Registry) (name : String) : Registry :=
  { r with elements := r.elements.set name (r.element name) }

/-- Whether a session runs for a stream. -/
def isAttached (r : Registry) (name : String) : Bool :=
  (r.sessions.get? name).any Session.isRunning

/-- The phase of the session of a stream, also after it has crashed. -/
def phase? (r : Registry) (name : String) : Option Phase :=
  ((r.sessions.get? name).map (·.phase)).or (r.ended.get? name)

/-- Takes the session of a stream off and detaches its element. -/
def teardown (r : Registry) (name : String) : Registry :=
  { r with
    sessions := r.sessions.erase name
    ended := r.ended.erase name
    departing := r.departing ++ ((r.sessions.get? name).map fun s => (name, s)).toList
    elements := r.elements.modify name Element.detach }

/-- Starts a session for a stream that has none. -/
def attach (r : Registry) (name : String) : Registry :=
  if r.isAttached name then r
  else
    let r := (r.teardown name).withElement name
    if r.supported then
      { r with
        attaches := r.attaches + 1
        sessions := r.sessions.set name { serial := r.attaches } }
    else
      { r with
        elements := r.elements.modify name fun e => e.after e.epoch (.error unsupportedMessage) }

/-- Starts a new session for a stream, whether it has one or not. -/
def replace (r : Registry) (name : String) : Registry := (r.teardown name).attach name

/-- Takes all sessions off. Also elements without a session are detached. -/
def teardownAll (r : Registry) : Registry := r.elements.names.foldl teardown r

/-- The user wishes to play a stream. Without a running session this is
a wish for a new one. -/
def requestPlay (r : Registry) (name : String) : Registry :=
  if r.isAttached name then
    { r with sessions := r.sessions.modify name fun s => { s with wishes := s.wishes + 1 } }
  else r.replace name

/-- Writes to the element of a stream on behalf of an engine or a
decoder. -/
def write (r : Registry) (name : String) (epoch : Nat) (w : Element.Write) : Registry :=
  { r with elements := r.elements.modify name fun e => e.after epoch w }

/-- Puts down where the session of a stream has come to. -/
def settle (r : Registry) (name : String) (move : Move) : Registry :=
  let r := { r with elements := r.elements.set name move.element }
  if move.session.isRunning then { r with sessions := r.sessions.set name move.session }
  else
    { r with
      sessions := r.sessions.erase name
      ended := r.ended.set name move.session.phase }

/-- Gives a signal to the session of a stream. -/
def step? (supply : Supply) (now : Nat) (name : String) (signal : Signal) (r : Registry) :
    Option (Registry × List Call) := do
  let s ← r.sessions.get? name
  let move ← s.act? false r.settings supply now signal (r.element name)
  pure (r.settle name move, move.calls)

/-- Wakes a session on its way out, by a signal that it has still waited
for or by its cancellation. They may be woken in any order. -/
def wake? (supply : Supply) (now : Nat) (i : Nat) (signal : Signal) (r : Registry) :
    Option (Registry × List (String × Call)) := do
  let (name, s) ← r.departing[i]?
  let move ← s.act? true r.settings supply now signal (r.element name)
  pure
    ({ r with
        departing := r.departing.eraseIdx i
        elements := r.elements.modify name fun _ => move.element },
      move.calls.map fun call => (name, call))

/-- Ends the session that has been on its way out for longest. -/
def depart? (r : Registry) : Option (Registry × List Call) :=
  match r.departing with
  | [] => none
  | (_, s) :: rest => some ({ r with departing := rest }, s.cancel.2)

end Registry

end VideoWall.Player
