/-
The detections of a stream as the screen sees them. A feed is written by
polling sessions, which may be late: every beginning and every end of a
session moves the session number on, and what a session with another
number brings is refused. `generation` counts the changes of what is
shown, so that a reader can skip repainting.
-/
import VideoWall.Recorder.Detection

namespace VideoWall.Polling

open Recorder

/-- What is known of the detections of a stream. `generation` counts the
changes, `session` the times at which polling began, and `errors` are the
failures since the last good answer. -/
structure Feed where
  detections : List Detection := []
  generation : Nat := 0
  session : Nat := 0
  errors : Nat := 0
  lastError : Option String := none
  deriving Inhabited

namespace Feed

/-- Begins a session; its number is the feed's session number now. -/
def begin (f : Feed) : Feed := { f with session := f.session + 1 }

/-- Ends the session and drops what it brought. -/
def finish (f : Feed) : Feed :=
  let f := { f with session := f.session + 1, errors := 0, lastError := none }
  if f.detections.isEmpty then f
  else { f with detections := [], generation := f.generation + 1 }

/-- Whether a session is the one in force. -/
def accepts (f : Feed) (session : Nat) : Bool := f.session = session

/-- Takes the outcome of a request made in a session, together with the
failures in a row so far. A session that is over changes nothing. -/
def apply (f : Feed) (session : Nat) (outcome : Except String (List Detection)) (errors : Nat) :
    Feed × Bool :=
  if f.accepts session then
    let f := { f with errors, generation := f.generation + 1 }
    match outcome with
    | .ok detections => ({ f with detections, lastError := none }, true)
    | .error message => ({ f with detections := [], lastError := some message }, true)
  else (f, false)

end Feed

end VideoWall.Polling
