/-
What a configuration has to satisfy before it is used, and the changes
that a command line makes to it first.
-/
import VideoWall.Config.Basic
import VideoWall.Url.Parser

namespace VideoWall.Config

/-- What a command line overrides. -/
structure Override where
  server : Option String := none
  username : Option String := none
  password : Option String := none
  deriving DecidableEq, Repr, Inhabited

/-- The text of a server address without slashes at its end. -/
def withoutSlashes (server : String) : String :=
  String.ofList (Text.dropEndWhile (· = '/') server.toList)

/-- Overrides what is given, and nothing else. -/
def override (c : Config) (o : Override) : Config :=
  { c with
    server := (o.server.map withoutSlashes).getD c.server
    username := o.username.orElse fun _ => c.username
    password := o.password.orElse fun _ => c.password }

/-- Where the name of the stream goes in a restream template. -/
def placeholder : String := "\x7bstream\x7d"

/-- What a configuration can be wrong in. -/
inductive Fault where
  | server (text : String) (cause : Url.ParseError)
  | scheme (server scheme : String)
  | intervals
  | restream (template : String)
  deriving DecidableEq, Repr

/-- What is said about a fault, the nearest cause last. -/
def Fault.chain : Fault → List String
  | .server text cause => ["server '" ++ text ++ "' is not a valid URL", cause.message]
  | .scheme text found =>
      ["server '" ++ text ++ "' must use http or https, got '" ++ found ++ "'"]
  | .intervals => ["detection intervals must satisfy 0 < base_interval_ms <= max_interval_ms"]
  | .restream template =>
      ["player.rtsp_restream must contain a " ++ placeholder ++ " placeholder, got '"
        ++ template ++ "'"]

/-- Whether requests can be made to addresses of a scheme. -/
def isWebScheme (scheme : List Char) : Bool :=
  scheme = "http".toList || scheme = "https".toList

/-- Whether the intervals of the polling section make sense. -/
def Detection.isOrdered (d : Detection) : Bool :=
  0 < d.baseInterval && d.baseInterval ≤ d.maxInterval

/-- Whether a restream template names the stream. -/
def hasPlaceholder (template : String) : Bool :=
  Text.occurs placeholder.toList template.toList

/-- Finds the first fault of a configuration. -/
def check (c : Config) : Except Fault Unit := do
  let url ← (Url.parse c.server.toList).mapError (.server c.server)
  if !isWebScheme url.scheme then throw (.scheme c.server (String.ofList url.scheme))
  if !c.detection.isOrdered then throw .intervals
  match c.playback.restream with
  | some template => if !hasPlaceholder template then throw (.restream template)
  | none => pure ()

end VideoWall.Config
