/-
The loop that plays a stream from its segments.

# The machine

The loop runs from one point of waiting to the next without a break. At
each point it wants one thing: the bytes of a segment, the decoder to
take a unit, time to pass, or the playlist again. A step takes what the
outside gave.

- Segments are played in the order of the playlist, from the newest one
  of the first playlist that has any; those with lower numbers than the
  next one wanted are passed over.
- When the segments of a playlist are through, the loop waits and reads
  the playlist again. If the window has moved past the next number, it
  jumps to the newest segment.
- A failure ends the round and is counted; a segment that was played
  sets the count back. When the budget is spent, the loop ends with what
  is said about the last failure. Before that, each failure doubles the
  pause that comes after it. A failed segment is followed by reading the
  playlist again, a failure to read it by another round over the old
  one.

A duration that no clock can hold would be the end of the loop without
a word; that is a point of its own.

# The decoder

Units with parameter sets wait until there is space in the decoder's
queue; others are dropped where there is none, and that is no failure. A
decoder that has gone takes no unit, which is a failure unless the element
has moved on.
-/
import VideoWall.Bitstream.Annexb
import VideoWall.Media.DecoderQueue
import VideoWall.Playlist.Parser
import VideoWall.Recorder.Failure
import VideoWall.Transport.Demuxer
import VideoWall.Url.Parser

namespace VideoWall.Playback

open Playlist Recorder Transport

/-- How failures are treated: how many in a row are too many, and the
pause after the first one in milliseconds. -/
structure FetchSettings where
  maxFailures : Nat := 3
  backoff : Nat := 500
  deriving DecidableEq, Repr, Inhabited

-- ========================================================== failures

/-- What can go wrong in a round. -/
inductive Trouble where
  | segmentAddress (uri : String) (cause : Url.ParseError)
  | segmentFetch (number : Nat) (cause : Failure)
  | segmentData (cause : SegmentError)
  | decoderGone
  | reload (cause : Failure)
  | playlist (cause : ParseError)
  | becameMaster
  deriving DecidableEq, Repr

/-- What is said of trouble, if it is the last. -/
def Trouble.report : Trouble → Report
  | .segmentAddress uri cause =>
      (Report.plain cause.message).within ("bad segment URI '" ++ uri ++ "'")
  | .segmentFetch number cause =>
      cause.report.within ("failed fetching segment " ++ toString number)
  | .segmentData cause => .plain cause.message
  | .decoderGone => .plain "decoder stopped unexpectedly"
  | .reload cause => cause.report.within "failed reloading HLS playlist"
  | .playlist cause => ⟨cause.chain, none⟩
  | .becameMaster => .plain "media playlist turned into a master playlist"

-- ============================================================ points

/-- What follows a pause: the playlist is read again, or its segments
are gone through once more. -/
inductive AfterPause where
  | reload
  | round
  deriving DecidableEq, Repr

/-- Where the loop waits. Times are in nanoseconds. -/
inductive Point where
  | fetching (segment : Segment) (address : Url) (rest : List Segment)
  | feeding (segment : Segment) (spacing : Nat) (unit : AccessUnit) (units : List AccessUnit)
      (rest : List Segment)
  | spacing (segment : Segment) (spacing : Nat) (units : List AccessUnit) (rest : List Segment)
  | pausing (duration : Nat) (next : AfterPause)
  | reloading
  | crashed
  | ended (fatal : Option Report)

/-- The loop: where it waits, the playlist and its address, the number
of the next segment, and the failures since the last segment. -/
structure FetchLoop where
  address : Url
  playlist : Media
  next : Option Nat
  failures : Nat := 0
  point : Point := .reloading

/-- What the loop wants at a point. -/
inductive Wish where
  | segment (address : Url)
  | decode (unit : List UInt8) (asConfiguration : Bool)
  | time (duration : Nat)
  | playlist (address : Url)
  | nothing

/-- What became of a unit given to the decoder. A decoder that is gone
may be gone because the element has moved on. -/
inductive Taken where
  | accepted
  | gone (elementMovedOn : Bool)
  deriving DecidableEq, Repr

/-- What the outside gives. -/
inductive Given where
  | segment (bytes : Except Failure (List UInt8))
  | taken (t : Taken)
  | timePassed
  | playlist (text : Except Failure (List Char))
  | cancelled

namespace FetchLoop

/-- What the loop waits for at its point. -/
def wish (l : FetchLoop) : Wish :=
  match l.point with
  | .fetching _ address _ => .segment address
  | .feeding _ _ unit _ _ => .decode unit.data (Bitstream.Annexb.carriesParameterSets unit.data)
  | .spacing _ duration _ _ => .time duration
  | .pausing duration _ => .time duration
  | .reloading => .playlist l.address
  | .crashed | .ended _ => .nothing

-- ============================================================= moves

/-- The pause after a number of failures in a row. -/
def pauseAfter (cfg : FetchSettings) (failures : Nat) : Nat :=
  cfg.backoff * 1000000 * min (Nat.pow 2 (failures - 1)) 4294967295

/-- Counts a failure. The loop ends if the budget is spent, and pauses if not.
-/
def fail (cfg : FetchSettings) (l : FetchLoop) (t : Trouble) (next : AfterPause) : FetchLoop :=
  let failures := l.failures + 1
  let point :=
    if cfg.maxFailures ≤ failures then .ended (some t.report)
    else if pauseAfter cfg failures < maxSeconds * 1000000000 then
      .pausing (pauseAfter cfg failures) next
    else .crashed
  { l with failures, point }

/-- Waits before the playlist is read again. -/
def rest (l : FetchLoop) : FetchLoop :=
  match l.playlist.reloadInterval? with
  | some duration => { l with point := .pausing duration .reload }
  | none => { l with point := .crashed }

/-- Goes on with the segments that are left of a round. -/
def play (cfg : FetchSettings) (l : FetchLoop) : List Segment → FetchLoop
  | [] => l.rest
  | s :: left =>
      match l.next with
      | none => l.rest
      | some next =>
          if s.sequence < next then l.play cfg left
          else
            match Url.join l.address s.uri.toList with
            | .error cause => l.fail cfg (.segmentAddress s.uri cause) .reload
            | .ok address => { l with point := .fetching s address left }

/-- A segment is through: the failures are forgotten and the next number is
wanted. -/
def played (cfg : FetchSettings) (l : FetchLoop) (s : Segment) (left : List Segment) : FetchLoop :=
  { l with failures := 0, next := some (s.sequence + 1) }.play cfg left

/-- Gives the next unit of a segment to the decoder. -/
def feed (cfg : FetchSettings) (l : FetchLoop) (s : Segment) (spacing : Nat)
    (units : List AccessUnit) (left : List Segment) : FetchLoop :=
  match units with
  | [] => l.played cfg s left
  | u :: units => { l with point := .feeding s spacing u units left }

/-- Takes the bytes of a segment and begins to play its units, which are spread
over the duration of the segment. -/
def takeSegment (cfg : FetchSettings) (l : FetchLoop) (s : Segment) (left : List Segment)
    (bytes : Except Failure (List UInt8)) : FetchLoop :=
  match bytes with
  | .error f => l.fail cfg (.segmentFetch s.sequence f) .reload
  | .ok bytes =>
      match demux bytes with
      | .error e => l.fail cfg (.segmentData e) .reload
      | .ok [] => l.played cfg s left
      | .ok units =>
          match s.spacing? units.length with
          | none => { l with point := .crashed }
          | some spacing => l.feed cfg s spacing units left

/-- The number of the next segment, once a playlist has been read again. -/
def nextIn (next : Option Nat) (p : Media) : Option Nat :=
  match next, p.segments.head? with
  | some n, some first => if n < first.sequence then p.liveEdge? else some n
  | some n, none => some n
  | none, _ => p.liveEdge?

/-- Takes the playlist that was read again. The number wanted may be gone from
it. -/
def takePlaylist (cfg : FetchSettings) (l : FetchLoop) (text : Except Failure (List Char)) :
    FetchLoop :=
  match text with
  | .error f => l.fail cfg (.reload f) .round
  | .ok text =>
      match parse text with
      | .error e => l.fail cfg (.playlist e) .round
      | .ok (.master _) => l.fail cfg .becameMaster .round
      | .ok (.media p) => { l with playlist := p, next := nextIn l.next p }.play cfg p.segments

-- ============================================================= steps

/-- A loop that begins at the live edge of its first playlist. -/
def start (cfg : FetchSettings) (address : Url) (playlist : Media) : FetchLoop :=
  let l : FetchLoop := { address, playlist, next := playlist.liveEdge? }
  l.play cfg playlist.segments

/-- Takes what the outside gave. Anything that the loop does not wait for
changes nothing. -/
def step (cfg : FetchSettings) (l : FetchLoop) (g : Given) : FetchLoop :=
  match l.point, g with
  | .ended _, _ | .crashed, _ => l
  | _, .cancelled => { l with point := .ended none }
  | .fetching s _ left, .segment bytes => l.takeSegment cfg s left bytes
  | .feeding s spacing _ units left, .taken .accepted =>
      { l with point := .spacing s spacing units left }
  | .feeding .., .taken (.gone false) => l.fail cfg .decoderGone .reload
  | .feeding .., .taken (.gone true) => { l with point := .ended none }
  | .spacing s spacing units left, .timePassed => l.feed cfg s spacing units left
  | .pausing _ .reload, .timePassed => { l with point := .reloading }
  | .pausing _ .round, .timePassed => l.play cfg l.playlist.segments
  | .reloading, .playlist text => l.takePlaylist cfg text
  | _, _ => l

/-- What is said about the failure that ended the loop. -/
def fatal? (l : FetchLoop) : Option Report :=
  match l.point with
  | .ended fatal => fatal
  | _ => none

end FetchLoop

-- ======================================================== the decoder

/-- Gives a unit to the queue of a decoder: what became of it, or nothing
yet if it has to wait. -/
def submit (q : Media.DecoderQueue) (elementMovedOn : Bool) (unit : List UInt8) :
    Media.DecoderQueue × Option Taken :=
  if Bitstream.Annexb.carriesParameterSets unit then
    match q.submitConfig unit with
    | (q, .queued) => (q, some .accepted)
    | (q, .waiting) => (q, none)
    | (q, .gone) => (q, some (.gone elementMovedOn))
  else
    match q.submitUnit unit with
    | (q, .queued) | (q, .dropped) => (q, some .accepted)
    | (q, .closed) => (q, some (.gone elementMovedOn))

end VideoWall.Playback
