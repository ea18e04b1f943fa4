/-
The engines that play a stream. One plays the recorder's own restream,
the other fetches the stream's playlists and segments. Both decode here,
so without a decoder there is no live playback at all.
-/
import VideoWall.Config.Check
import VideoWall.Recorder.Client

namespace VideoWall.Playback

/-- What a stream is played from: a restream of the recorder, or its segments.
-/
inductive EngineKind where
  | restream
  | segments
  deriving DecidableEq, Repr

/-- Which engine is used: the restream if one is configured. -/
def EngineKind.select (restreamConfigured hasDecoder : Bool) : Option EngineKind :=
  if !hasDecoder then none
  else if restreamConfigured then some .restream
  else some .segments

/-- Why there is no address to play a stream from. -/
inductive SourceError where
  | noTemplate
  | address (text : String) (cause : Url.ParseError)
  | unsupported
  deriving DecidableEq, Repr

/-- What is said about it, the nearest cause last. -/
def SourceError.report : SourceError → Report
  | .noTemplate => .plain "no restream template configured"
  | .address text cause =>
      (Report.plain cause.message).within ("invalid restream URL '" ++ text ++ "'")
  | .unsupported => .plain "live playback is not supported here"

/-- A template with the name of a stream in place of its placeholder. -/
def fillTemplate (template stream : String) : String :=
  String.ofList (Text.replace Config.placeholder.toList stream.toList template.toList)

/-- The address that a stream is played from. -/
def sourceUrl (kind : Option EngineKind) (template : Option String) (c : Recorder.Client)
    (stream : String) (stamp : Int) : Except SourceError Url :=
  match kind with
  | none => .error .unsupported
  | some .segments => .ok (c.manifest stream stamp)
  | some .restream =>
      match template with
      | none => .error .noTemplate
      | some template =>
          let text := fillTemplate template stream
          (Url.parse text.toList).mapError (.address text)

/-- What is said when an engine is wanted where none can be. -/
def noEngine : String := "live playback is not supported here: no H.264 decoder available"

/-- What is said when an engine that was never attached is to play. -/
def notAttached : String := "play requested before attach"

/-- What is said when no frame came within a number of seconds. -/
def noVideo (seconds : Nat) : String := "no video within " ++ toString seconds ++ " s"

end VideoWall.Playback
