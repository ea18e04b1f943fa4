/-
Detected objects, as the recorder reports them for a stream. The box of
a detection must be there; its label and confidence may be missing.
-/
import VideoWall.Json.Decode
import VideoWall.Geometry.Viewport

namespace VideoWall.Recorder

open Json VideoWall.Geometry

/-- One detected object and its box in parts of the frame. -/
structure Detection where
  box : UnitBox Float32 := ⟨0, 0, 0, 0⟩
  label : String := ""
  confidence : Float32 := 0
  deriving Inhabited

namespace Detection

/-- How a detection is read. It has to have a box. -/
def reading : Record Detection where
  name := "Detection"
  initial := {}
  fields :=
    [ field "x" .fails decodeSingle fun v d => { d with box.x := v },
      field "y" .fails decodeSingle fun v d => { d with box.y := v },
      field "width" .fails decodeSingle fun v d => { d with box.width := v },
      field "height" .fails decodeSingle fun v d => { d with box.height := v },
      field "label" .keeps decodeText fun v d => { d with label := v },
      field "confidence" .keeps decodeSingle fun v d => { d with confidence := v } ]

/-- A detection as a JSON value. -/
def toJson (d : Detection) : Value :=
  .object
    [ ("x", .number (.single d.box.x)),
      ("y", .number (.single d.box.y)),
      ("width", .number (.single d.box.width)),
      ("height", .number (.single d.box.height)),
      ("label", .text d.label),
      ("confidence", .number (.single d.confidence)) ]

end Detection

/-- What is detected on a stream at one time. -/
structure DetectionResults where
  stream : String := ""
  timestamp : Float := 0
  detections : List Detection := []
  deriving Inhabited

namespace DetectionResults

/-- How the results of a stream are read. -/
def reading : Record DetectionResults where
  name := "DetectionResults"
  initial := {}
  fields :=
    [ field "stream" .keeps decodeText fun v r => { r with stream := v },
      field "timestamp" .keeps decodeDouble fun v r => { r with timestamp := v },
      field "detections" .keeps (decodeList Detection.reading.decode)
        fun v r => { r with detections := v } ]

/-- Results as a JSON value. -/
def toJson (r : DetectionResults) : Value :=
  .object
    [ ("stream", .text r.stream),
      ("timestamp", .number (.double r.timestamp)),
      ("detections", .array (r.detections.map Detection.toJson)) ]

end DetectionResults

end VideoWall.Recorder
