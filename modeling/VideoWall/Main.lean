/-
The program. It looks up its variables, reads its files, lets the run do
the rest, and writes what the run has left behind. Recorders are reached
over plain connections. There is nothing here that decodes video, and no
terminal that the wall could be shown on.
-/
import Std.Async.DNS
import Std.Async.TCP
import Std.Async.Timer
import Std.Time
import VideoWall.Program.Run
import VideoWall.Recorder.Wire

namespace VideoWall

open Recorder Program

-- ======================================================== connections

/-- The port to connect to. -/
def portOf (u : Url) : UInt16 := ((u.port.or (Url.defaultPort? u.scheme)).getD 80).toUInt16

/-- A place to connect to. -/
def socketAddress (port : UInt16) : Std.Net.IPAddr → Std.Net.SocketAddress
  | .v4 a => .v4 ⟨a, port⟩
  | .v6 a => .v6 ⟨a, port⟩

/-- A host as a name service is asked for it. -/
def lookupName : Url.Host → String
  | .ipv6 pieces => String.ofList (Url.renderIpv6 pieces)
  | host => String.ofList host.render

/-- The most bytes that are received at once. -/
def receiveSize : UInt64 := 65536

/-- Receives until the answer is complete or the connection is closed. -/
partial def receive (socket : Std.Async.TCP.Socket.Client) (got : List UInt8) :
    Std.Async.Async Answer := do
  match Wire.answer? false got with
  | some answer => pure answer
  | none =>
      match ← socket.recv? receiveSize with
      | some bytes => receive socket (got ++ bytes.toList)
      | none => pure ((Wire.answer? true got).getD (.disrupted .dropped))

/-- Sends a request over a connection of its own. -/
def exchange (r : Request) : Std.Async.Async Answer := do
  if r.url.scheme = "https".toList then return .disrupted .unreachable
  let name := lookupName (r.url.host.getD (.domain []))
  let found ← Std.Async.DNS.getAddrInfo name (toString (portOf r.url))
  match found[0]? with
  | none => pure (.disrupted .unreachable)
  | some address =>
      let socket ← Std.Async.TCP.Socket.Client.mk
      socket.connect (socketAddress (portOf r.url) address)
      try
        socket.send (Wire.requestText r).toUTF8
        receive socket []
      catch _ => pure (.disrupted .dropped)

/-- Sends a request and waits for the answer, but not for too long. -/
def ask (r : Request) : IO Answer :=
  try
    let answer : Std.Async.Async (Option Answer) := do return some (← exchange r)
    let late : Std.Async.Async (Option Answer) := do
      Std.Async.sleep (.ofNat r.timeout)
      return none
    return (← (Std.Async.Async.race answer late).block).getD .late
  catch _ => return .disrupted .unreachable

/-- Holds a dialogue with the recorders that it asks. -/
def converse {α : Type} : Dialogue α → IO α
  | .done a => pure a
  | .ask request next => do converse (next (← ask request))
  | .pause duration next => do
      IO.sleep duration.toUInt32
      converse next

-- ============================================================= world

/-- What is said when the wall cannot be shown. -/
def noScreen : Report :=
  (Report.plain "there is no terminal to draw on").within "failed to enable raw mode"

/-- The world as the program finds it. -/
def outsideWorld (environment : ByName String) : World IO where
  hasDecoder := false
  instant := return (← Std.Time.Timestamp.now).toMillisecondsSinceUnixEpoch.toInt
  converse := fun _ d => VideoWall.converse d
  start := fun _ _ _ _ => pure (.error (.plain Playback.noEngine))
  save := fun path _ => pure (.error (.plain ("failed writing snapshot " ++ path)))
  openScreen := pure (.error noScreen)
  variableOf := environment.get?
  here := do
    try return .ok (← IO.currentDir).toString
    catch e =>
      return .error ((Report.plain e.toString).within "failed resolving current directory")

/-- The variables that the program looks up. -/
def variableNames : List String :=
  ["XDG_DATA_HOME", "HOME", "NVR_SERVER", "NVR_USER", "NVR_PASSWORD"]

/-- The files that a run may read. -/
def filePaths (environment : ByName String) (arguments : List String) : List String :=
  let own := match dataDirectory environment.get? with
    | .ok data => ["config.json", "theme.json", "ui_prefs.json"].map (Files.below data)
    | .error _ => []
  let given := match Invocation.read environment.get? arguments with
    | .ok i => i.config.toList
    | .error _ => []
  own ++ given

/-- The files at some paths, as far as they can be read. -/
def readFiles (paths : List String) : IO Files :=
  paths.foldlM (fun f (path : String) => do
    try return f.write path (← IO.FS.readFile path)
    catch _ => return f) {}

/-- Writes the files that a run has changed. -/
def writeFiles (before after : Files) : IO Unit :=
  after.texts.entries.forM fun (path, text) => do
    if before.texts.get? path != some text then
      match Files.parent? path with
      | some directory => IO.FS.createDirAll directory
      | none => pure ()
      IO.FS.writeFile path text

/-- The file in the working directory that the log goes to. -/
def logName : String := "nvr-live.log"

/-- Adds the events of a run to the log. -/
def writeLog (environment : ByName String) (desk : Desk) : IO Unit := do
  match dataDirectory environment.get?, desk.log (.ofSetting none) with
  | .ok data, line :: lines => do
      let file ← IO.FS.Handle.mk (Files.below data logName) .append
      (line :: lines).forM file.putStrLn
  | _, _ => pure ()

/-- Runs the program in the world outside: the files that it may read are read
before, those that it wrote are written after, and what it printed is printed
at the end. -/
def runProgram (arguments : List String) : IO UInt32 := do
  let found ← variableNames.filterMapM fun name => do
    return (← IO.getEnv name).map fun value => (name, value)
  let environment : ByName String := ⟨found⟩
  let files ← readFiles (filePaths environment arguments)
  let ending ← Program.run (outsideWorld environment) arguments files
  writeFiles files ending.desk.files
  writeLog environment ending.desk
  ending.desk.printed.forM IO.println
  ending.desk.warned.forM fun line => IO.eprintln line
  return ending.exit

end VideoWall

/-- The program. -/
def main (arguments : List String) : IO UInt32 := VideoWall.runProgram arguments
