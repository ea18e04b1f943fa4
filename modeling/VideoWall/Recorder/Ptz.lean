/-
Cameras that pan, tilt and zoom: what they can do, where they remember
to look, and how fast they are told to move. A velocity axis is kept in
`[-1, 1]`, which is all that a recorder accepts.
-/
import VideoWall.Json.Decode
import VideoWall.Geometry.Scalar

namespace VideoWall.Recorder

open Json

/-- Velocities on the three axes. -/
structure PtzMove where
  pan : Float32 := 0
  tilt : Float32 := 0
  zoom : Float32 := 0
  deriving Inhabited

namespace PtzMove

/-- How a move is read. It has to have all three speeds. -/
def reading : Record PtzMove where
  name := "PtzMove"
  initial := {}
  fields :=
    [ field "pan" .fails decodeSingle fun v m => { m with pan := v },
      field "tilt" .fails decodeSingle fun v m => { m with tilt := v },
      field "zoom" .fails decodeSingle fun v m => { m with zoom := v } ]

/-- A move as a JSON value. -/
def toJson (m : PtzMove) : Value :=
  .object
    [ ("pan", .number (.single m.pan)),
      ("tilt", .number (.single m.tilt)),
      ("zoom", .number (.single m.zoom)) ]

/-- Keeps every axis in the accepted range. -/
def clamped (m : PtzMove) : PtzMove :=
  let axis (x : Float32) : Float32 := Geometry.Scalar.clamp (-1) 1 x
  ⟨axis m.pan, axis m.tilt, axis m.zoom⟩

end PtzMove

/-- The directions bound to keys. -/
inductive PtzDirection where
  | left
  | right
  | up
  | down
  | zoomIn
  | zoomOut
  deriving DecidableEq, Repr

/-- The move in a direction. -/
def PtzDirection.motion (speed : Float32) : PtzDirection → PtzMove
  | .left => PtzMove.clamped ⟨-speed, 0, 0⟩
  | .right => PtzMove.clamped ⟨speed, 0, 0⟩
  | .up => PtzMove.clamped ⟨0, speed, 0⟩
  | .down => PtzMove.clamped ⟨0, -speed, 0⟩
  | .zoomIn => PtzMove.clamped ⟨0, 0, speed⟩
  | .zoomOut => PtzMove.clamped ⟨0, 0, -speed⟩

/-- What a camera can do. -/
structure PtzCapabilities where
  hasPtz : Bool := false
  hasPanTilt : Bool := false
  hasZoom : Bool := false
  hasPresets : Bool := false
  hasHome : Bool := false
  maxPresets : Nat := 0
  deriving Inhabited

namespace PtzCapabilities

/-- How the abilities of a camera are read. -/
def reading : Record PtzCapabilities where
  name := "PtzCapabilities"
  initial := {}
  fields :=
    [ field "has_ptz" .keeps decodeBool fun v c => { c with hasPtz := v },
      field "has_pan_tilt" .keeps decodeBool fun v c => { c with hasPanTilt := v },
      field "has_zoom" .keeps decodeBool fun v c => { c with hasZoom := v },
      field "has_presets" .keeps decodeBool fun v c => { c with hasPresets := v },
      field "has_home" .keeps decodeBool fun v c => { c with hasHome := v },
      field "max_presets" .keeps (decodeNat 32 "u32") fun v c => { c with maxPresets := v } ]

/-- The abilities of a camera as a JSON value. -/
def toJson (c : PtzCapabilities) : Value :=
  .object
    [ ("has_ptz", .bool c.hasPtz),
      ("has_pan_tilt", .bool c.hasPanTilt),
      ("has_zoom", .bool c.hasZoom),
      ("has_presets", .bool c.hasPresets),
      ("has_home", .bool c.hasHome),
      ("max_presets", .nat c.maxPresets) ]

end PtzCapabilities

/-- A stored position. -/
structure PtzPreset where
  token : String := ""
  name : String := ""
  deriving Inhabited, DecidableEq

namespace PtzPreset

/-- How a preset is read. -/
def reading : Record PtzPreset where
  name := "PtzPreset"
  initial := {}
  fields :=
    [ field "token" .keeps decodeText fun v p => { p with token := v },
      field "name" .keeps decodeText fun v p => { p with name := v } ]

/-- How a preset is written. -/
def toJson (p : PtzPreset) : Value :=
  .object [("token", .text p.token), ("name", .text p.name)]

/-- The presets of a camera may come wrapped in an object with one
field. -/
def wrapped : Record (List PtzPreset) where
  name := "Wrapped"
  initial := []
  fields := [field "presets" .fails (decodeList reading.decode) fun v _ => v]

/-- Reads wrapped presets. -/
def decodeWrapped : Decoder (List PtzPreset)
  | .object start members => wrapped.decode (.object start members)
  | node => .error (node.mismatch "struct Wrapped")

/-- Reads the presets of a camera, bare or wrapped. The text is read in
full before either form is tried. -/
def decodeAll : Decoder (List PtzPreset) := fun node => do
  let value ← node.toValue maxDepth
  let node := Node.ofValue value
  match decodeList reading.decode node, decodeWrapped node with
  | .ok presets, _ => .ok presets
  | _, .ok presets => .ok presets
  | _, _ =>
      .error (Problem.rejected "data did not match any variant of untagged enum PresetsResponse").unplaced

end PtzPreset

end VideoWall.Recorder
