/-
One camera that pans, tilts and zooms. A timed move always ends with a
stop, also when the move itself was refused, so that no camera keeps
drifting.
-/
import VideoWall.Recorder.Client

namespace VideoWall.Recorder

/-- A camera of a recorder, by the name of its stream. -/
structure Camera where
  client : Client
  stream : String

namespace Camera

/-- What is reported when something about a camera fails. -/
def reported {α : Type} (context : String) (r : Except Failure α) : Except Report α :=
  r.mapError fun f => f.report.within context

variable (c : Camera)

/-- What the camera can do. -/
def capabilities : Dialogue (Except Report PtzCapabilities) := do
  pure (reported ("failed reading PTZ capabilities of '" ++ c.stream ++ "'")
    (← c.client.ptzCapabilities c.stream))

/-- Where the camera remembers to look. -/
def presets : Dialogue (Except Report (List PtzPreset)) := do
  pure (reported ("failed listing PTZ presets of '" ++ c.stream ++ "'")
    (← c.client.ptzPresets c.stream))

/-- Begins to move. -/
def startMove (move : PtzMove) : Dialogue (Except Report Unit) := do
  pure (reported ("PTZ move failed on '" ++ c.stream ++ "'") (← c.client.ptzMove c.stream move))

/-- Stops all movement. -/
def stop : Dialogue (Except Report Unit) := do
  pure (reported ("PTZ stop failed on '" ++ c.stream ++ "'") (← c.client.ptzStop c.stream))

/-- Sends the camera to its home position. -/
def home : Dialogue (Except Report Unit) := do
  pure (reported ("PTZ home failed on '" ++ c.stream ++ "'") (← c.client.ptzHome c.stream))

/-- Looks where a preset says. -/
def gotoPreset (token : String) : Dialogue (Except Report Unit) := do
  pure (reported ("PTZ preset '" ++ token ++ "' failed on '" ++ c.stream ++ "'")
    (← c.client.ptzGotoPreset c.stream token))

/-- Moves for a while, then stops. A move that was refused is stopped at
once; its failure is the one that is reported. -/
def moveFor (move : PtzMove) (duration : Nat) : Dialogue (Except Report Unit) := do
  match ← c.startMove move with
  | .ok () => .pause duration c.stop
  | .error r => do
      let _ ← c.stop
      pure (.error r)

/-- The speed of a move by a key. -/
def nudgeSpeed : Float32 := 0.5

/-- How long a nudge lasts, in milliseconds. -/
def nudgeLength : Nat := 400

/-- A short move in one direction. -/
def nudge (direction : PtzDirection) : Dialogue (Except Report Unit) :=
  c.moveFor (direction.motion nudgeSpeed) nudgeLength

end Camera

end VideoWall.Recorder
