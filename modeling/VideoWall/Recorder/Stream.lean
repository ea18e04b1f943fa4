/-
Camera streams as the recorder lists them. The list and the detail of a
stream have overlapping fields, so every field has a default.
-/
import VideoWall.Json.Decode
import VideoWall.Text.Blank

namespace VideoWall.Recorder

open Json

/-- A camera stream. -/
structure Stream where
  id : Option Int := none
  name : String := ""
  width : Nat := 0
  height : Nat := 0
  fps : Nat := 0
  codec : String := ""
  priority : Int := 0
  enabled : Bool := false
  streamingEnabled : Bool := false
  record : Bool := false
  ptzEnabled : Bool := false
  isDeleted : Bool := false
  detectionBasedRecording : Bool := false
  detectionModel : String := ""
  detectionThreshold : Float32 := 0
  detectionInterval : Nat := 0
  status : String := ""
  deriving Inhabited

namespace Stream

/-- How a stream is read. -/
def reading : Record Stream where
  name := "Stream"
  initial := {}
  fields :=
    [ field "id" .keeps (decodeOption (decodeInt 64 "i64")) fun v s => { s with id := v },
      field "name" .keeps decodeText fun v s => { s with name := v },
      field "width" .keeps (decodeNat 32 "u32") fun v s => { s with width := v },
      field "height" .keeps (decodeNat 32 "u32") fun v s => { s with height := v },
      field "fps" .keeps (decodeNat 32 "u32") fun v s => { s with fps := v },
      field "codec" .keeps decodeText fun v s => { s with codec := v },
      field "priority" .keeps (decodeInt 32 "i32") fun v s => { s with priority := v },
      field "enabled" .keeps decodeBool fun v s => { s with enabled := v },
      field "streaming_enabled" .keeps decodeBool fun v s => { s with streamingEnabled := v },
      field "record" .keeps decodeBool fun v s => { s with record := v },
      field "ptz_enabled" .keeps decodeBool fun v s => { s with ptzEnabled := v },
      field "is_deleted" .keeps decodeBool fun v s => { s with isDeleted := v },
      field "detection_based_recording" .keeps decodeBool
        fun v s => { s with detectionBasedRecording := v },
      field "detection_model" .keeps decodeText fun v s => { s with detectionModel := v },
      field "detection_threshold" .keeps decodeSingle
        fun v s => { s with detectionThreshold := v },
      field "detection_interval" .keeps (decodeNat 32 "u32")
        fun v s => { s with detectionInterval := v },
      field "status" .keeps decodeText fun v s => { s with status := v } ]

/-- A stream as a JSON value. -/
def toJson (s : Stream) : Value :=
  .object
    [ ("id", .ofOption .int s.id),
      ("name", .text s.name),
      ("width", .nat s.width),
      ("height", .nat s.height),
      ("fps", .nat s.fps),
      ("codec", .text s.codec),
      ("priority", .int s.priority),
      ("enabled", .bool s.enabled),
      ("streaming_enabled", .bool s.streamingEnabled),
      ("record", .bool s.record),
      ("ptz_enabled", .bool s.ptzEnabled),
      ("is_deleted", .bool s.isDeleted),
      ("detection_based_recording", .bool s.detectionBasedRecording),
      ("detection_model", .text s.detectionModel),
      ("detection_threshold", .number (.single s.detectionThreshold)),
      ("detection_interval", .nat s.detectionInterval),
      ("status", .text s.status) ]

/-- Whether the recorder runs a detector on the stream: it is told to,
and the model has a name. -/
def detectionConfigured (s : Stream) : Bool :=
  s.detectionBasedRecording && !(Text.trim s.detectionModel.toList).isEmpty

/-- Whether the stream belongs on the wall at all. -/
def isLiveViewable (s : Stream) : Bool :=
  !s.isDeleted && s.enabled && s.streamingEnabled

/-- What the detail of a stream is asked for by: its number, or its name
when it has none. -/
def detailKey (s : Stream) : String :=
  match s.id with
  | some id => toString id
  | none => s.name

end Stream

end VideoWall.Recorder
