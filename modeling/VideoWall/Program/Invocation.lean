/-
What the program can be told to do, and how that is written on its
command line. Without a command the live wall is opened.
-/
import VideoWall.CommandLine.Reading
import VideoWall.Recorder.Deletion
import VideoWall.Recorder.Ptz
import VideoWall.Snapshot.Basic
import VideoWall.Wall.View

namespace VideoWall.Program

open CommandLine Recorder

-- ======================================================== invocations

/-- How the live wall is to be shown, apart from what is remembered of the
view that it was left in. -/
structure LiveOptions where
  layout : Option String := none
  columns : Option Nat := none
  rows : Option Nat := none
  noDetections : Bool := false
  deriving DecidableEq, Repr, Inhabited

/-- The layout that is asked for: a grid of given columns and rows, or
else one for a number of streams. -/
def LiveOptions.layout? (o : LiveOptions) : Option Wall.Layout :=
  match o.columns, o.rows with
  | some columns, some rows => some (.custom columns rows)
  | _, _ => do
      let text ← o.layout
      let count ← (Numeral.readNat Numeral.maxWord64 text.toList).toOption
      pure (Wall.Layout.preset count)

/-- What is remembered, as far as it is not to be shown otherwise. -/
def LiveOptions.applyTo (o : LiveOptions) (p : Wall.Preferences) : Wall.Preferences :=
  { p with
    layout := o.layout?.getD p.layout
    showDetections := p.showDetections && !o.noDetections }

/-- What a camera can be told. -/
inductive PtzAction where
  | capabilities
  | presets
  | stop
  | home
  | preset (token : String)
  | move (motion : PtzMove) (duration : Nat)

/-- What the program is asked to do. -/
inductive Command where
  | live (options : LiveOptions)
  | listStreams (json : Bool)
  | snapshot (stream : String) (directory : Option String) (format : Snapshot.Format)
      (noDetections : Bool)
  | ptz (stream : String) (action : PtzAction)
  | delete (ids : List Int) (filter : RecordingFilter)

/-- What the program is told: where its configuration is, what of it to
replace, and what to do. -/
structure Invocation where
  config : Option String := none
  server : Option String := none
  username : Option String := none
  password : Option String := none
  command : Option Command := none

-- ========================================================== interface

/-- The name of the program. -/
def programName : String := "nvr-live"

/-- The version of the program. -/
def programVersion : String := "0.1.0"

/-- The formats of snapshots, by the names that they are asked for with. -/
def formatNames : List (String × Snapshot.Format) := [("jpeg", .jpeg), ("png", .png)]

/-- A flag that takes no value. -/
def switch (name : String) : Flag := { name, shape := .alone }

/-- The live wall. -/
def liveGrammar : Grammar where
  name := "live"
  flags := [
    { name := "layout", shape := .single (.oneOf ["1", "4", "9", "16"]) },
    { name := "columns", shape := .single .natural, requires := ["rows"], excludes := ["layout"] },
    { name := "rows", shape := .single .natural, requires := ["columns"], excludes := ["layout"] },
    switch "no-detections"]

/-- The list of streams. -/
def streamsGrammar : Grammar where
  name := "streams"
  commandRequired := true
  commands := [{ name := "list", flags := [switch "json"] }]

/-- A snapshot of a stream. -/
def snapshotGrammar : Grammar where
  name := "snapshot"
  places := ["stream"]
  flags := [
    { name := "out", shape := .single .path },
    { name := "format", shape := .single (.oneOf (formatNames.map (·.1))) },
    switch "no-detections"]

/-- A speed of a move, which may be negative. -/
def speedFlag (name : String) : Flag := { name, shape := .single .real, hyphens := true }

/-- A camera that moves. -/
def ptzGrammar : Grammar where
  name := "ptz"
  places := ["stream"]
  commandRequired := true
  commands := [
    { name := "capabilities" }, { name := "presets" }, { name := "stop" }, { name := "home" },
    { name := "preset", places := ["token"] },
    { name := "move",
      flags := ["pan", "tilt", "zoom"].map speedFlag ++
        [{ name := "duration-ms", shape := .single .natural }] }]

/-- The deletion of recordings. -/
def recordingsGrammar : Grammar where
  name := "recordings"
  commandRequired := true
  commands := [{
    name := "delete"
    flags := [
      { name := "id", shape := .list .integer,
        excludes := ["stream", "start", "end", "detection"] },
      { name := "stream", shape := .single .text },
      { name := "start", shape := .single .text },
      { name := "end", shape := .single .text },
      switch "detection"] }]

/-- The whole command line. -/
def interface : Interface where
  common := [
    { name := "config", shape := .single .path },
    { name := "server", shape := .single .text, setBy := some "NVR_SERVER" },
    { name := "user", shape := .single .text, setBy := some "NVR_USER" },
    { name := "password", shape := .single .text, setBy := some "NVR_PASSWORD" }]
  root := {
    name := programName
    commands := [liveGrammar, streamsGrammar, snapshotGrammar, ptzGrammar, recordingsGrammar] }

-- ============================================================ meaning

/-- How long a move lasts if nothing else is said, in milliseconds. -/
def defaultMove : Nat := 500

/-- The text that was given for an argument. -/
def textOf (l : Level) (name : String) : Option String := (l.entryOf name).bind Entry.text?

/-- The number that was given for an argument. -/
def naturalOf (l : Level) (name : String) : Option Nat := (l.entryOf name).bind Entry.natural?

/-- Whether an argument was given. -/
def isSet (l : Level) (name : String) : Bool := (l.entryOf name).isSome

/-- The options of the live wall. -/
def liveOptions (l : Level) : LiveOptions where
  layout := textOf l "layout"
  columns := naturalOf l "columns"
  rows := naturalOf l "rows"
  noDetections := isSet l "no-detections"

/-- The move that was asked for, for a while. A speed that was not given is
nought. -/
def moveOf (l : Level) : PtzAction :=
  let speed (name : String) : Float32 := ((l.entryOf name).bind Entry.real?).getD 0
  .move ⟨speed "pan", speed "tilt", speed "zoom"⟩ ((naturalOf l "duration-ms").getD defaultMove)

/-- What a camera is told. -/
def ptzAction? (l : Level) : Option PtzAction :=
  match l.name with
  | "capabilities" => some .capabilities
  | "presets" => some .presets
  | "stop" => some .stop
  | "home" => some .home
  | "preset" => some (.preset ((textOf l "token").getD ""))
  | "move" => some (moveOf l)
  | _ => none

/-- The deletion that was asked for. -/
def deletion (l : Level) : Command :=
  .delete (((l.entryOf "id").map Entry.integers).getD [])
    { start := textOf l "start"
      stop := textOf l "end"
      streamName := textOf l "stream"
      detection := if isSet l "detection" then some true else none }

/-- The command that the levels within the outermost one name. -/
def command? : List Level → Option Command
  | [l] =>
      match l.name with
      | "live" => some (.live (liveOptions l))
      | "snapshot" =>
          some (.snapshot ((textOf l "stream").getD "") (textOf l "out")
            (((textOf l "format").bind (List.lookup · formatNames)).getD .jpeg) (isSet l "no-detections"))
      | _ => none
  | [outer, inner] =>
      match outer.name with
      | "streams" => some (.listStreams (isSet inner "json"))
      | "ptz" => (ptzAction? inner).map (.ptz ((textOf outer "stream").getD ""))
      | "recordings" => some (deletion inner)
      | _ => none
  | _ => none

/-- What the program is told. -/
def Invocation.ofLevels (levels : List Level) : Invocation :=
  let common (name : String) : Option String := (commonEntry name levels).bind Entry.text?
  { config := common "config"
    server := common "server"
    username := common "user"
    password := common "password"
    command := command? (levels.drop 1) }

/-- Reads a command line. -/
def Invocation.read (environment : String → Option String) (arguments : List String) :
    Except Fault Invocation :=
  (interface.read environment arguments).map .ofLevels

end VideoWall.Program
