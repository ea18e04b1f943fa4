/-
The configuration: where the recorder is, how it is asked, and how its
streams are played. It is kept as a JSON file in which every field may
be missing; the file is written with all fields.
-/
import VideoWall.Json.Decode
import VideoWall.Player.Session
import VideoWall.Polling.Backoff

namespace VideoWall

open Json

-- ========================================================== sections

namespace Config

/-- How streams are polled for detections. Times are in milliseconds. -/
structure Detection where
  baseInterval : Nat := 1000
  maxInterval : Nat := 5000
  errorThreshold : Nat := 3
  deriving DecidableEq, Repr, Inhabited

/-- How the polling section is read. -/
def Detection.reading : Record Detection where
  name := "DetectionSettings"
  initial := {}
  fields :=
    [ field "base_interval_ms" .keeps (decodeNat 64 "u64") fun v s => { s with baseInterval := v },
      field "max_interval_ms" .keeps (decodeNat 64 "u64") fun v s => { s with maxInterval := v },
      field "error_threshold" .keeps (decodeNat 32 "u32")
        fun v s => { s with errorThreshold := v } ]

/-- How the polling section is written. -/
def Detection.toJson (s : Detection) : Value :=
  .object
    [ ("base_interval_ms", .nat s.baseInterval),
      ("max_interval_ms", .nat s.maxInterval),
      ("error_threshold", .nat s.errorThreshold) ]

/-- How streams are played. `restream` is a template for the address of
the recorder's restream of a stream, if it has one. -/
structure Playback where
  refreshSeconds : Nat := 30
  retryDelay : Nat := 1000
  playTimeoutSeconds : Nat := 10
  autoplay : Bool := true
  touchCapable : Bool := false
  restream : Option String := none
  deriving DecidableEq, Repr, Inhabited

/-- How the settings of playback are read; those that are not given are kept.
-/
def Playback.reading : Record Playback where
  name := "PlayerSettings"
  initial := {}
  fields :=
    [ field "refresh_interval_secs" .keeps (decodeNat 64 "u64")
        fun v s => { s with refreshSeconds := v },
      field "retry_delay_ms" .keeps (decodeNat 64 "u64") fun v s => { s with retryDelay := v },
      field "play_timeout_secs" .keeps (decodeNat 64 "u64")
        fun v s => { s with playTimeoutSeconds := v },
      field "autoplay" .keeps decodeBool fun v s => { s with autoplay := v },
      field "touch_capable" .keeps decodeBool fun v s => { s with touchCapable := v },
      field "rtsp_restream" .keeps (decodeOption decodeText) fun v s => { s with restream := v } ]

/-- How the playback section is written. -/
def Playback.toJson (s : Playback) : Value :=
  .object
    [ ("refresh_interval_secs", .nat s.refreshSeconds),
      ("retry_delay_ms", .nat s.retryDelay),
      ("play_timeout_secs", .nat s.playTimeoutSeconds),
      ("autoplay", .bool s.autoplay),
      ("touch_capable", .bool s.touchCapable),
      ("rtsp_restream", .ofOption .text s.restream) ]

end Config

-- ===================================================== configuration

/-- The configuration of the program. -/
structure Config where
  server : String := "http://localhost:8080"
  username : Option String := none
  password : Option String := none
  requestTimeout : Nat := 5000
  detection : Config.Detection := {}
  playback : Config.Playback := {}
  snapshotDirectory : Option String := none
  deriving DecidableEq, Repr, Inhabited

namespace Config

/-- How a configuration is read; what is not given is kept. -/
def reading : Record Config where
  name := "AppConfig"
  initial := {}
  fields :=
    [ field "server" .keeps decodeText fun v c => { c with server := v },
      field "username" .keeps (decodeOption decodeText) fun v c => { c with username := v },
      field "password" .keeps (decodeOption decodeText) fun v c => { c with password := v },
      field "request_timeout_ms" .keeps (decodeNat 64 "u64")
        fun v c => { c with requestTimeout := v },
      field "detection" .keeps Detection.reading.decode fun v c => { c with detection := v },
      field "player" .keeps Playback.reading.decode fun v c => { c with playback := v },
      field "snapshot_dir" .keeps (decodeOption (decodeTextAs "path string"))
        fun v c => { c with snapshotDirectory := v } ]

/-- A configuration as a JSON value. -/
def toJson (c : Config) : Value :=
  .object
    [ ("server", .text c.server),
      ("username", .ofOption .text c.username),
      ("password", .ofOption .text c.password),
      ("request_timeout_ms", .nat c.requestTimeout),
      ("detection", c.detection.toJson),
      ("player", c.playback.toJson),
      ("snapshot_dir", .ofOption .text c.snapshotDirectory) ]

/-- Reads a configuration. -/
def parse (s : List Char) : Except Error Config := Json.decode reading.decode s

/-- A configuration as it is written to a file. -/
def render (c : Config) : String := c.toJson.pretty

-- ========================================================= in force

/-- The least time that a request is given. -/
def leastTimeout : Nat := 100

/-- For how long a request is waited for, which is never less than
`leastTimeout`. -/
def timeoutInForce (c : Config) : Nat := max c.requestTimeout leastTimeout

/-- How detections are polled. -/
def polling (c : Config) : Polling.Settings where
  baseInterval := c.detection.baseInterval
  maxInterval := c.detection.maxInterval
  errorThreshold := max c.detection.errorThreshold 1
  requestTimeout := c.timeoutInForce

/-- How streams are played. -/
def sessions (c : Config) : Player.Settings where
  refreshInterval := max c.playback.refreshSeconds 1 * 1000
  retryDelay := c.playback.retryDelay
  autoplay := c.playback.autoplay
  touchCapable := c.playback.touchCapable

/-- How long an engine waits for its first frame, in seconds. -/
def playTimeout (c : Config) : Nat := max c.playback.playTimeoutSeconds 1

end Config

end VideoWall
