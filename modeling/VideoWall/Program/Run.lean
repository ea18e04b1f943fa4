/-
What the program does with an invocation. Everything outside the program
is behind a `World`: talking to the recorder, starting a stream, writing
a picture. Files, printed lines and log events are values, so that a run
can be followed from the outside.

A run loads the configuration, replaces what the invocation says, checks
it, and then carries out the command. It fails with a report.
-/
import VideoWall.Config.Check
import VideoWall.Files.Document
import VideoWall.Log.Filter
import VideoWall.Playback.Engine
import VideoWall.Program.Invocation
import VideoWall.Recorder.Camera
import VideoWall.Recorder.DeletionJob
import VideoWall.Toast

namespace VideoWall.Program

open Recorder Playback

-- ============================================================== world

/-- What a run finds outside: whether video can be decoded, what time it
is in milliseconds, a recorder to talk to, an engine that starts a
stream and gives its element, a place for pictures, and the terminal. -/
structure World (m : Type → Type) where
  hasDecoder : Bool
  instant : m Int
  converse : {α : Type} → Client → Dialogue α → m α
  start : Client → EngineKind → (playTimeout : Nat) → Url → m (Except Report Media.Element)
  save : (path : String) → Snapshot.Shot → m (Except Report Unit)
  openScreen : m (Except Report Unit)
  variableOf : String → Option String
  here : m (Except Report String)

/-- What a run leaves behind: its files, the lines that it printed for
its output and for its errors, and the events of its log. -/
structure Desk where
  files : Files := {}
  printed : List String := []
  warned : List String := []
  events : List Log.Event := []

/-- A run that may fail. -/
abbrev Run (m : Type → Type) : Type → Type := ExceptT Report (StateT Desk m)

section Steps

variable {m : Type → Type} [Monad m]

/-- Does something outside. -/
def outside {α : Type} (x : m α) : Run m α := ExceptT.lift (StateT.lift x)

/-- Does something outside that may fail. -/
def attempt {α : Type} (x : m (Except Report α)) : Run m α := do
  match ← outside x with
  | .ok a => pure a
  | .error r => throw r

/-- Goes on with what was found, or fails. -/
def require {α : Type} : Except Report α → Run m α
  | .ok a => pure a
  | .error r => throw r

/-- Prints a line. -/
def print (line : String) : Run m Unit :=
  modify fun (d : Desk) => { d with printed := d.printed ++ [line] }

/-- Prints a line where errors are printed. -/
def warn (line : String) : Run m Unit :=
  modify fun (d : Desk) => { d with warned := d.warned ++ [line] }

/-- Gives the user a notice. -/
def notify (severity : Severity) (message : String) : Run m Unit :=
  warn ("[" ++ severity.tag ++ "] " ++ message)

/-- Writes to the log. -/
def note (e : Log.Event) : Run m Unit :=
  modify fun (d : Desk) => { d with events := d.events ++ [e] }

end Steps

-- ======================================================== directories

/-- The directory of the program below that of the user's data. -/
def directoryName : String := "nvr-live"

/-- Where the user's data are: where the environment says, or else in
the usual place below the home directory. -/
def userData? (variableOf : String → Option String) : Option String :=
  match (variableOf "XDG_DATA_HOME").filter (·.startsWith "/") with
  | some directory => some directory
  | none =>
      ((variableOf "HOME").filter (!·.isEmpty)).map fun home => Files.below home ".local/share"

/-- Where the program keeps its files. -/
def dataDirectory (variableOf : String → Option String) : Except Report String :=
  match userData? variableOf with
  | some directory => .ok (Files.below directory directoryName)
  | none => .error (.plain "unable to determine user data directory")

/-- A document of the program, which is written if it is not there. -/
def openDocument {m : Type → Type} [Monad m] {α : Type} (d : Files.Document α) (path : String) :
    Run m α := do
  let desk ← get
  let files ← require (d.create path desk.files)
  set { desk with files }
  require (d.load path files)

-- ============================================================ streams

/-- A row of the table of streams. -/
def streamRow (name resolution codec rate state detection : String) : String :=
  "  ".intercalate [Text.padRight 20 name, Text.padRight 11 resolution, Text.padRight 8 codec,
    Text.padRight 5 rate, Text.padRight 9 state, detection]

/-- The table of streams, with its head. -/
def streamTable (streams : List Stream) : List String :=
  streamRow "NAME" "RESOLUTION" "CODEC" "FPS" "STATE" "DETECTION" ::
    streams.map fun s =>
      streamRow s.name (toString s.width ++ "x" ++ toString s.height) s.codec (toString s.fps)
        (if s.isLiveViewable then "live" else "off")
        (if s.detectionConfigured then s.detectionModel else "-")

section Commands

variable {m : Type → Type} [Monad m] (w : World m) (config : Config) (client : Client)

/-- Prints the streams of the recorder, as JSON or as a table. -/
def listStreams (json : Bool) : Run m Unit := do
  match ← outside (w.converse client client.listStreams) with
  | .error f => throw (f.report.within "failed loading stream list")
  | .ok streams =>
      if json then print (Json.Value.array (streams.map Stream.toJson)).pretty
      else if streams.isEmpty then print "The recorder has no streams configured."
      else (streamTable streams).forM print

-- =========================================================== snapshot

/-- Where snapshots go: where the user says, else where the configuration says,
else here. -/
def snapshotDirectory (directory : Option String) : Run m String :=
  match directory.or config.snapshotDirectory with
  | some directory => pure directory
  | none => attempt w.here

/-- Saves the newest frame of a stream with its detections drawn in. A
recorder that does not tell the detections is no reason to fail. -/
def takeSnapshot (stream : String) (directory : Option String) (format : Snapshot.Format)
    (noDetections : Bool) : Run m Unit := do
  let data ← require (dataDirectory w.variableOf)
  let theme ← openDocument Files.theme (Files.below data "theme.json")
  let kind? := EngineKind.select config.playback.restream.isSome w.hasDecoder
  let stamp ← outside w.instant
  let source ← require ((sourceUrl kind? config.playback.restream client stream stamp).mapError
    SourceError.report)
  match kind? with
  | none => throw (.plain noEngine)
  | some kind => do
      let element ← attempt do
        return (← w.start client kind config.playTimeout source).mapError
          (·.within ("stream '" ++ stream ++ "' did not start"))
      let detections ←
        if noDetections then pure [] else
          match ← outside (w.converse client (client.detectionResults stream)) with
          | .ok detections => pure detections
          | .error f => do
              notify .warning ("snapshot taken without detections: " ++ f.message)
              pure []
      let instant ← outside w.instant
      let renderer : Overlay.Renderer := ⟨theme.detections, Overlay.labelFont⟩
      let shot ← require ((Snapshot.capture renderer stream element detections format
        instant).mapError fun f => .plain f.message)
      let path := Files.below (← snapshotDirectory w config directory) shot.fileName
      attempt (w.save path shot)
      notify .success ("Saved " ++ toString shot.picture.width ++ "x" ++
        toString shot.picture.height ++ " snapshot with " ++ toString detections.length ++
        " detection(s) to " ++ path)

-- ============================================================= camera

/-- Asks a camera for something, or tells it to move. -/
def tellCamera (stream : String) (action : PtzAction) : Run m Unit := do
  let camera : Camera := ⟨client, stream⟩
  let ask {α : Type} (d : Dialogue (Except Report α)) : Run m α := attempt (w.converse client d)
  match action with
  | .capabilities => print (← ask camera.capabilities).toJson.pretty
  | .presets => do
      let presets ← ask camera.presets
      if presets.isEmpty then print ("No presets stored on '" ++ stream ++ "'.")
      presets.forM fun p => print (Text.padRight 8 p.token ++ "  " ++ p.name)
  | .stop => ask camera.stop
  | .home => ask camera.home
  | .preset token => ask (camera.gotoPreset token)
  | .move motion duration => ask (camera.moveFor motion.clamped duration)

-- ========================================================== recordings

/-- How often the progress of a job is read, in milliseconds. -/
def progressInterval : Nat := 1000

/-- Deletes recordings: those with the given numbers, or else those that
meet the conditions. -/
def deleteRecordings (ids : List Int) (filter : RecordingFilter) : Run m Unit := do
  let selection : Selection := if ids.isEmpty then .filter filter else .ids ids
  match ← outside (w.converse client (DeletionJob.submit client selection)) with
  | .error (.nothingSelected warning) => do
      notify .warning warning
      throw (.plain "nothing to delete")
  | .error (.failed report) => throw report
  | .ok job => do
      let watched ← outside (w.converse client
        (DeletionJob.watch client job progressInterval Numeral.maxWord64))
      watched.records.forM fun p =>
        warn ("  " ++ toString p.current ++ "/" ++ toString p.total ++ " processed")
      let last ← require watched.ending
      if last.isError then
        notify .error last.summary
        throw (.plain ("batch delete job " ++ job ++ " failed"))
      else notify (if last.hasFailures then .warning else .success) last.summary

-- =============================================================== live

/-- The part of the program that shows the live wall, in the log. -/
def liveTarget : String := "nvr_live::tui"

/-- The event that says which engine will play. -/
def engineSelected (kind? : Option EngineKind) : Log.Event where
  level := .info
  target := "nvr_live::engine"
  fields := ["message", "kind"]
  text := "live playback engine selected kind=" ++ match kind? with
    | none => "None"
    | some .restream => "Some(Native)"
    | some .segments => "Some(ClientSide)"

/-- What the live wall starts with. -/
structure Opening where
  theme : Theme
  view : Wall.View
  kind? : Option EngineKind

/-- Prepares the live wall. A theme or preferences that cannot be read are
replaced by the default ones, and the log says so. -/
def prepare (data : String) (options : LiveOptions) : Run m Opening := do
  let orDefault {α : Type} (x : Run m α) (initial : α) (before after : String) : Run m α :=
    tryCatch x fun report => do
      note { level := .warn, target := liveTarget, text := before ++ report.line ++ after }
      pure initial
  let theme ← orDefault (openDocument Files.theme (Files.below data "theme.json")) {}
    "failed to load theme config (" "), using defaults"
  let preferences ← orDefault
    (do require (Files.preferences.load (Files.below data "ui_prefs.json") (← get).files)) {}
    "ignoring unreadable UI preferences: " ""
  let kind? := EngineKind.select config.playback.restream.isSome w.hasDecoder
  note (engineSelected kind?)
  pure ⟨theme, (options.applyTo preferences).view, kind?⟩

/-- Opens the live wall on the view that was left. -/
def showWall (options : LiveOptions) : Run m Unit := do
  let data ← require (dataDirectory w.variableOf)
  let _ ← prepare w config data options
  attempt w.openScreen

end Commands

-- ================================================================ run

section Whole

variable {m : Type → Type} [Monad m] (w : World m)

/-- Where the configuration is: where the invocation says, or among the
files of the program. -/
def configurationPath (i : Invocation) : Except Report String :=
  match i.config with
  | some path => .ok path
  | none => (dataDirectory w.variableOf).map (Files.below · "config.json")

/-- The configuration, with what the invocation replaces. -/
def configure (i : Invocation) : Run m Config := do
  let path ← require (configurationPath w i)
  let config ← openDocument Files.configuration path
  let config := config.override ⟨i.server, i.username, i.password⟩
  match config.check with
  | .ok () => pure config
  | .error fault => throw ⟨fault.chain, none⟩

/-- The options of the live wall, if that is what is wanted. -/
def Invocation.wall? (i : Invocation) : Option LiveOptions :=
  match i.command with
  | none => some {}
  | some (.live options) => some options
  | some _ => none

/-- Makes sure that the log of the live wall can be written. -/
def openLog : Run m Unit := do
  let data ← require (dataDirectory w.variableOf)
  require (((← get).files.makeDirectory data).mapError fun fault =>
    (Report.plain fault.message).within ("failed creating log directory " ++ data))

/-- Does what the program is asked to do; without a command that is the live
wall. -/
def carryOut (i : Invocation) : Run m Unit := do
  if i.wall?.isSome then openLog w
  let config ← configure w i
  let client ← require ((Client.ofConfig config).mapError fun f =>
    f.report.within "failed creating API client")
  match i.command with
  | none => showWall w config {}
  | some (.live options) => showWall w config options
  | some (.listStreams json) => listStreams w client json
  | some (.snapshot stream directory format noDetections) =>
      takeSnapshot w config client stream directory format noDetections
  | some (.ptz stream action) => tellCamera w client stream action
  | some (.delete ids filter) => deleteRecordings w client ids filter

/-- How a run ended. -/
structure Ending where
  exit : UInt32
  desk : Desk

/-- What becomes of a command line that is not carried out. Help and the
version are no errors. -/
def refuse (fault : CommandLine.Fault) (desk : Desk) : Ending :=
  match fault with
  | .versionWanted => ⟨0, { desk with printed := [programName ++ " " ++ programVersion] }⟩
  | .helpWanted _ => ⟨0, { desk with printed := [fault.message] }⟩
  | _ => ⟨2, { desk with warned := ["error: " ++ fault.message] }⟩

/-- A whole run, from the command line to the end. -/
def run (arguments : List String) (files : Files) : m Ending := do
  let desk : Desk := { files }
  match Invocation.read w.variableOf arguments with
  | .error fault => pure (refuse fault desk)
  | .ok i => do
      match ← (carryOut w i).run.run desk with
      | (.ok (), desk) => pure ⟨0, desk⟩
      | (.error report, desk) => pure ⟨1, { desk with warned := desk.warned ++ report.lines }⟩

/-- What the log of a run holds, one event a line. -/
def Desk.log (d : Desk) (f : Log.Filter) : List String := (d.events.filter f.admits).map (·.line)

end Whole

end VideoWall.Program
