/-
The recorder's interface: the addresses of what it offers, and one
dialogue for each thing it is asked.
-/
import VideoWall.Config.Basic
import VideoWall.Recorder.Deletion
import VideoWall.Recorder.Detection
import VideoWall.Recorder.Dialogue
import VideoWall.Recorder.Ptz
import VideoWall.Recorder.Stream

namespace VideoWall.Recorder

open Json

/-- How a recorder is reached, and for how long it is waited for. The
base address ends in a slash. -/
structure Client where
  base : Url
  login : Option Login := none
  timeout : Nat := 5000
  deriving DecidableEq

namespace Client

-- ========================================================= addresses

/-- The base address of a server. -/
def baseOf (server : String) : Except Failure Url :=
  match Url.parse server.toList with
  | .error _ => .error (.invalidBase server)
  | .ok u => if u.isOpaque then .error (.invalidBase server) else .ok u.withTrailingSlash

/-- The login of a configuration; without a user name there is none. -/
def loginOf (c : Config) : Option Login :=
  match c.username with
  | none => none
  | some name =>
      if (Text.trim name.toList).isEmpty then none else some ⟨name, c.password.getD ""⟩

/-- The client of a configuration, if its server has an address. -/
def ofConfig (c : Config) : Except Failure Client :=
  (baseOf c.server).map fun base => ⟨base, loginOf c, c.timeoutInForce⟩

variable (c : Client)

/-- The base address and below it the segments with the given names. -/
def endpoint (names : List String) : Url :=
  c.base.popEmptySegment.addSegments (names.map String.toList)

/-- The manifest of a stream, with a stamp that keeps caches from
answering with an old one. -/
def manifest (stream : String) (stamp : Int) : Url :=
  (c.endpoint ["hls", stream, "index.m3u8"]).addPair ['_', 't'] (intText stamp)

-- ========================================================== requests

/-- The credentials in an address, in plain text. -/
def loginIn? (u : Url) : Option Login := do
  if u.username = [] ∧ u.password = [] then none
  let username ← Text.Utf8.decode? (Url.decodeBytes u.username)
  let password ← Text.Utf8.decode? (Url.decodeBytes u.password)
  pure ⟨String.ofList username, String.ofList password⟩

/-- Whether requests can be sent to an address. -/
def isWeb (u : Url) : Bool := u.scheme = "http".toList || u.scheme = "https".toList

/-- Whether a status says that all went well. -/
def isSuccess (status : Nat) : Bool := 200 ≤ status && status < 300

/-- The request for an address. Credentials in the address go before
those of the client. -/
def request (method : Method) (u : Url) (body : Option String) : Request :=
  match loginIn? u with
  | some login => ⟨method, u.withoutCredentials, some login, body, c.timeout⟩
  | none => ⟨method, u, c.login, body, c.timeout⟩

/-- Asks for an address: the bytes of a good answer. -/
def send (method : Method) (u : Url) (body : Option String) :
    Dialogue (Except Failure (List UInt8)) :=
  let r := c.request method u body
  let failed (d : Disruption) : Failure := .network u.toText r.url.toText d
  if isWeb u then
    .ask r fun
      | .reply status bytes =>
          .done (if isSuccess status then .ok bytes else .error (.status u.toText status))
      | .late => .done (.error (.timeout u.toText))
      | .disrupted d => .done (.error (failed d))
  else .done (.error (failed .wrongScheme))

/-- The value in the bytes of an answer. -/
def readAnswer {α : Type} (u : Url) (d : Decoder α) (bytes : List UInt8) : Except Failure α :=
  (decodeBytes d bytes).mapError fun e =>
    .decode u.toText e.problem.category (e.message (Text.Utf8.decodeLossy bytes))

/-- Asks for a value. -/
def getJson {α : Type} (d : Decoder α) (u : Url) : Dialogue (Except Failure α) := do
  pure ((← c.send .get u none).bind (readAnswer u d))

/-- Sends a value; what is answered does not matter. -/
def post (u : Url) (body : Value) : Dialogue (Except Failure Unit) := do
  pure ((← c.send .post u (some body.compact)).map fun _ => ())

/-- The bytes at an address. -/
def getBytes (u : Url) : Dialogue (Except Failure (List UInt8)) := c.send .get u none

/-- The text at an address. Bytes that are no text are replaced. -/
def getText (u : Url) : Dialogue (Except Failure (List Char)) := do
  pure ((← c.send .get u none).map Text.Utf8.decodeLossy)

-- =========================================================== streams

/-- Asks for all streams. -/
def listStreams : Dialogue (Except Failure (List Stream)) :=
  c.getJson (decodeList Stream.reading.decode) (c.endpoint ["api", "streams"])

/-- Asks for the detail of a stream. -/
def getStream (key : String) : Dialogue (Except Failure Stream) :=
  c.getJson Stream.reading.decode (c.endpoint ["api", "streams", key])

/-- The detail of a stream under the name that the list has for it, or
what the list says if there is no detail. -/
def detailed (summary : Stream) : Dialogue Stream := do
  match ← c.getStream summary.detailKey with
  | .ok detail => pure (if detail.name = "" then { detail with name := summary.name } else detail)
  | .error _ => pure summary

/-- The streams of the wall, in detail. -/
def loadLiveStreams : Dialogue (Except Failure (List Stream)) := do
  match ← c.listStreams with
  | .error f => pure (.error f)
  | .ok summaries => do
      let details ← summaries.mapM c.detailed
      pure (.ok (details.filter Stream.isLiveViewable))

/-- The newest detections of a stream. -/
def detectionResults (stream : String) : Dialogue (Except Failure (List Detection)) := do
  pure ((← c.getJson DetectionResults.reading.decode
    (c.endpoint ["api", "detection", "results", stream])).map (·.detections))

-- =========================================================== cameras

/-- The address of something that a camera does. -/
def cameraEndpoint (stream action : String) : Url :=
  c.endpoint ["api", "streams", stream, "ptz", action]

/-- What a camera can do. -/
def ptzCapabilities (stream : String) : Dialogue (Except Failure PtzCapabilities) :=
  c.getJson PtzCapabilities.reading.decode (c.cameraEndpoint stream "capabilities")

/-- Where a camera remembers to look. -/
def ptzPresets (stream : String) : Dialogue (Except Failure (List PtzPreset)) :=
  c.getJson PtzPreset.decodeAll (c.cameraEndpoint stream "presets")

/-- Starts a move, at speeds that the recorder accepts. -/
def ptzMove (stream : String) (move : PtzMove) : Dialogue (Except Failure Unit) :=
  c.post (c.cameraEndpoint stream "move") move.clamped.toJson

/-- Tells a camera to stop. -/
def ptzStop (stream : String) : Dialogue (Except Failure Unit) :=
  c.post (c.cameraEndpoint stream "stop") (.object [])

/-- Tells a camera to go home. -/
def ptzHome (stream : String) : Dialogue (Except Failure Unit) :=
  c.post (c.cameraEndpoint stream "home") (.object [])

/-- Looks where a preset says. -/
def ptzGotoPreset (stream token : String) : Dialogue (Except Failure Unit) :=
  c.post (c.cameraEndpoint stream "preset") (.object [("token", .text token)])

-- ========================================================== deletion

/-- Has recordings deleted: the name of the job. -/
def batchDelete (body : Value) : Dialogue (Except Failure String) := do
  let u := c.endpoint ["api", "recordings", "batch-delete"]
  pure ((← c.send .post u (some body.compact)).bind (readAnswer u acceptedReading.decode))

/-- How far a job has come. -/
def deletionProgress (job : String) : Dialogue (Except Failure DeletionProgress) :=
  c.getJson DeletionProgress.reading.decode
    (c.endpoint ["api", "recordings", "batch-delete", "progress", job])

end Client

end VideoWall.Recorder
