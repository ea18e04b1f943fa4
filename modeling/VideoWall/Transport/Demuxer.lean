/-
From a transport stream to the access units of its video. The demuxer
learns from the tables which stream is the video, collects the payloads
of that stream, and closes a unit when the next one begins.
-/
import VideoWall.Transport.Packet
import VideoWall.Transport.Section
import VideoWall.Transport.Unit

namespace VideoWall.Transport

open Bitstream

/-- What has been learnt and collected. -/
structure Demuxer where
  mapStream : Option Nat := none
  videoStream : Option Nat := none
  pending : List UInt8 := []
  units : List AccessUnit := []
  deriving DecidableEq, Repr, Inhabited

namespace Demuxer

/-- Closes the unit that is being collected. One that cannot be read, or
has no data, is dropped. -/
def flush (d : Demuxer) : Checked Demuxer :=
  if d.pending.isEmpty then pure d
  else do
    let rest := { d with pending := [] }
    match ← AccessUnit.read d.pending with
    | .ok unit => if unit.data.isEmpty then pure rest else pure { rest with units := d.units ++ [unit] }
    | .error _ => pure rest

/-- Takes the payload of a packet: a table says which stream comes next, and
the video stream gives pieces of units. Other streams do not matter. -/
def takePayload (d : Demuxer) (p : Packet) (payload : List UInt8) : Checked Demuxer := do
  if p.stream = associationStream then
    if p.unitStart then
      match ← mapStream? payload with
      | some stream => pure { d with mapStream := some stream }
      | none => pure d
    else pure d
  else if some p.stream = d.mapStream then
    if p.unitStart then
      match ← videoStream? payload with
      | some stream => pure { d with videoStream := some stream }
      | none => pure d
    else pure d
  else if some p.stream = d.videoStream then
    let d ← if p.unitStart then d.flush else pure d
    pure { d with pending := d.pending ++ payload }
  else pure d

/-- Takes a packet. -/
def takePacket (d : Demuxer) (bytes : List UInt8) : Checked Demuxer := do
  let p ← Packet.read bytes
  match p.payload with
  | none => pure d
  | some payload => d.takePayload p payload

/-- Takes a chunk of the stream. Bytes are not carried over from one
chunk to the next. -/
def push (d : Demuxer) (chunk : List UInt8) : Checked Demuxer :=
  (packets chunk).foldlM takePacket d

/-- Closes the last unit: all units, in order. -/
def finish (d : Demuxer) : Checked (List AccessUnit) := do pure (← d.flush).units

end Demuxer

/-- Why a segment has no units. -/
inductive SegmentError where
  | noVideo
  | damaged (fault : OutOfRange)
  deriving DecidableEq, Repr

/-- The words for each cause. -/
def SegmentError.message : SegmentError → String
  | .noVideo => "segment has no H.264 elementary stream"
  | .damaged _ => "segment is damaged"

/-- The units of a segment, which has to have a video stream. -/
def demux (segment : List UInt8) : Except SegmentError (List AccessUnit) := do
  let d ← (({} : Demuxer).push segment).mapError .damaged
  if d.videoStream.isNone then throw .noVideo
  d.finish.mapError .damaged

end VideoWall.Transport
