/-
Deleting many recordings at once: what to delete, the job that the
recorder runs for it, and how far the job has come.

A selection that selects nothing is turned down before anything is sent.
A job that the recorder gave up is an error whatever its counters say.
-/
import VideoWall.Json.Decode

namespace VideoWall.Recorder

open Json

/-- Conditions on recordings. Those that are not given are not written
either. -/
structure RecordingFilter where
  start : Option String := none
  stop : Option String := none
  streamName : Option String := none
  detection : Option Bool := none
  deriving Inhabited, DecidableEq

namespace RecordingFilter

/-- How a filter is read. -/
def reading : Record RecordingFilter where
  name := "RecordingFilter"
  initial := {}
  fields :=
    [ field "start" .keepsInObject (decodeOption decodeText) fun v f => { f with start := v },
      field "end" .keepsInObject (decodeOption decodeText) fun v f => { f with stop := v },
      field "stream_name" .keepsInObject (decodeOption decodeText)
        fun v f => { f with streamName := v },
      field "detection" .keepsInObject (decodeOption decodeBool)
        fun v f => { f with detection := v } ]

/-- A filter as a JSON value, with what it asks for alone. -/
def toJson (f : RecordingFilter) : Value :=
  let given {α : Type} (name : String) (g : α → Value) (v : Option α) : List (String × Value) :=
    (v.map fun a => (name, g a)).toList
  .object
    (given "start" .text f.start ++ given "end" .text f.stop
      ++ given "stream_name" .text f.streamName ++ given "detection" .bool f.detection)

/-- Whether a filter asks for nothing, which would be all recordings. -/
def isEmpty (f : RecordingFilter) : Bool :=
  f.start.isNone && f.stop.isNone && f.streamName.isNone && f.detection.isNone

end RecordingFilter

/-- What to delete. -/
inductive Selection where
  | ids (ids : List Int)
  | filter (f : RecordingFilter)
  deriving DecidableEq

namespace Selection

/-- Why a selection is not deleted. -/
def warning? : Selection → Option String
  | .ids [] => some "No recordings selected for deletion"
  | .ids _ => none
  | .filter f =>
      if f.isEmpty then some "A filter needs at least one of stream, start, end or detection"
      else none

/-- The body of the request. -/
def toJson : Selection → Value
  | .ids numbers => .object [("ids", .array (numbers.map .int))]
  | .filter f => .object [("filter", f.toJson)]

/-- The body of the request, or the warning to show instead. -/
def request (s : Selection) : Except String Value :=
  match s.warning? with
  | some w => .error w
  | none => .ok s.toJson

end Selection

/-- How the recorder accepts a job: with its name. -/
def acceptedReading : Record String where
  name := "BatchDeleteAccepted"
  initial := ""
  fields := [field "job_id" .fails decodeText fun v _ => v]

/-- How far a job has come. -/
structure DeletionProgress where
  current : Nat := 0
  total : Nat := 0
  succeeded : Nat := 0
  failed : Nat := 0
  complete : Bool := false
  status : String := ""
  statusMessage : String := ""
  errorMessage : Option String := none
  deriving Inhabited, DecidableEq

namespace DeletionProgress

/-- How the progress of a deletion is read. -/
def reading : Record DeletionProgress where
  name := "BatchDeleteProgress"
  initial := {}
  fields :=
    [ field "current" .keeps (decodeNat 64 "u64") fun v p => { p with current := v },
      field "total" .keeps (decodeNat 64 "u64") fun v p => { p with total := v },
      field "succeeded" .keeps (decodeNat 64 "u64") fun v p => { p with succeeded := v },
      field "failed" .keeps (decodeNat 64 "u64") fun v p => { p with failed := v },
      field "complete" .keeps decodeBool fun v p => { p with complete := v },
      field "status" .keeps decodeText fun v p => { p with status := v },
      field "status_message" .keeps decodeText fun v p => { p with statusMessage := v },
      field "error_message" .keeps (decodeOption decodeText)
        fun v p => { p with errorMessage := v } ]

/-- The progress of a deletion as a JSON value. -/
def toJson (p : DeletionProgress) : Value :=
  .object
    [ ("current", .nat p.current),
      ("total", .nat p.total),
      ("succeeded", .nat p.succeeded),
      ("failed", .nat p.failed),
      ("complete", .bool p.complete),
      ("status", .text p.status),
      ("status_message", .text p.statusMessage),
      ("error_message", .ofOption .text p.errorMessage) ]

/-- Whether the recorder gave the job up. -/
def isError (p : DeletionProgress) : Bool :=
  p.status.toList.map Char.toLower == "error".toList

/-- Whether anything has failed so far. -/
def hasFailures (p : DeletionProgress) : Bool := p.isError || p.failed > 0

/-- What is said when the job is over. -/
def summary (p : DeletionProgress) : String :=
  if p.isError then
    let reason := match p.errorMessage with
      | none | some "" => "unknown error"
      | some reason => reason
    "Batch delete failed after " ++ toString p.succeeded ++ " of " ++ toString p.total
      ++ " recordings: " ++ reason
  else
    "Deleted " ++ toString p.succeeded ++ " of " ++ toString p.total ++ " recordings"
      ++ (if p.failed > 0 then ", " ++ toString p.failed ++ " failed" else "")
      ++ (if p.statusMessage = "" then "" else " (" ++ p.statusMessage ++ ")")

end DeletionProgress

end VideoWall.Recorder
