/-
The two engines against a scripted server, on a clock that only moves
when the loop of segments waits. The decoder takes every unit and shows
no frame; there is nobody who restreams. So no stream ever starts in a run
of the program against such a server, and there is no terminal.
-/
import VideoWall.Media.Element
import VideoWall.Playback.Engine
import VideoWall.Playback.FetchLoop
import VideoWall.Playback.Manifest
import VideoWall.Program.Run
import VideoWall.Rehearsal.Server
import VideoWall.Restream.Credentials

namespace VideoWall.Rehearsal

open Playback Program Recorder

/-- A rehearsed engine: its server, whether it has been told what to
play, and its loop with the time that it waits for, in nanoseconds. -/
structure RehearsedEngine where
  server : Server
  client : Client
  settings : FetchSettings := {}
  playTimeout : Nat := 10000
  attached : Bool := false
  loop : Option (FetchLoop × Nat) := none
  now : Nat := 0

namespace RehearsedEngine

/-- Gives the loop what it wants; time passes if that is what it wants,
but not beyond `limit`. -/
def serve (e : RehearsedEngine) (limit : Nat) : Option RehearsedEngine :=
  match e.loop with
  | none => none
  | some (l, wake) =>
      let given (e : RehearsedEngine) (g : Given) : RehearsedEngine :=
        let l := l.step e.settings g
        let wake := match l.wish with
          | .time duration => e.now + duration
          | _ => e.now
        { e with loop := some (l, wake) }
      match l.wish with
      | .nothing => none
      | .time _ => if limit < wake then none else some (given { e with now := wake } .timePassed)
      | .decode _ _ => some (given e (.taken .accepted))
      | .segment address =>
          let (bytes, server) := e.server.converse (e.client.getBytes address)
          some (given { e with server } (.segment bytes))
      | .playlist address =>
          let (text, server) := e.server.converse (e.client.getText address)
          some (given { e with server } (.playlist text))

/-- Serves the loop until a time, in `fuel` steps at most. -/
def runUntil (limit : Nat) : (fuel : Nat) → RehearsedEngine → RehearsedEngine
  | 0, e => e
  | fuel + 1, e =>
      match e.serve limit with
      | none => e
      | some e => e.runUntil limit fuel

/-- The most steps that a rehearsal takes at once. -/
def patience : Nat := 20000

/-- Lets time pass, in milliseconds. -/
def wait (e : RehearsedEngine) (duration : Nat) : RehearsedEngine :=
  let limit := e.now + duration * 1000000
  { e.runUntil limit patience with now := limit }

/-- The fatal message, if there is one. -/
def fatal? (e : RehearsedEngine) : Option String :=
  e.loop.bind fun (l, _) => l.fatal?.map Report.line

/-- Tells the engine of segments what to play. -/
def attach (e : RehearsedEngine) (source : Url) : RehearsedEngine × Except Report Unit :=
  let e := { e with attached := true, loop := none }
  let (found, server) := e.server.converse (resolve e.client source)
  let e := { e with server }
  match found with
  | .error err => (e, .error err.report)
  | .ok (address, playlist) =>
      let l := FetchLoop.start e.settings address playlist
      let wake := match l.wish with
        | .time duration => e.now + duration
        | _ => e.now
      ({ e with loop := some (l, wake) }, .ok ())

/-- Tells the engine of restreams what to play. -/
def attachRestream (e : RehearsedEngine) : RehearsedEngine × Except Report Unit :=
  ({ e with attached := true }, .error (.plain Restream.describeFailed))

/-- Waits for the first frame in vain. -/
def play (e : RehearsedEngine) : RehearsedEngine × String :=
  if e.attached then (e.wait e.playTimeout, noVideo (e.playTimeout / 1000)) else (e, notAttached)

/-- Lets go of what is played. -/
def dispose (e : RehearsedEngine) : RehearsedEngine := { e with attached := false, loop := none }

end RehearsedEngine

-- ============================================================ a program

/-- Starts a stream in vain: why it did not start. -/
def startInVain (client : Client) (kind : EngineKind) (playTimeout : Nat) (source : Url)
    (server : Server) : Report × Server :=
  let e : RehearsedEngine := { server, client, playTimeout := 1000 * playTimeout }
  let (e, attached) := match kind with
    | .segments => e.attach source
    | .restream => e.attachRestream
  match attached with
  | .error report => (report, e.server)
  | .ok () =>
      let (e, message) := e.play
      (.plain message, e.server)

/-- What is said where there is no terminal. -/
def noTerminal : Report :=
  (Report.plain "No such device or address (os error 6)").within "failed to enable raw mode"

/-- A world with nothing but a scripted server and variables of the
environment, at an instant. -/
def trialWorld (environment : ByName String) (instant : Int) : World (StateM Server) where
  hasDecoder := true
  instant := pure instant
  converse := fun _ d server => server.converse d
  start := fun client kind playTimeout source server =>
    let (report, server) := startInVain client kind playTimeout source server
    (.error report, server)
  save := fun _ _ => pure (.error (.plain "there is no place for pictures"))
  openScreen := pure (.error noTerminal)
  variableOf := environment.get?
  here := pure (.error (.plain "failed resolving current directory"))

end VideoWall.Rehearsal
