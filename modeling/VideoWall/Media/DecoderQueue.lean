/-
The queue in front of a decoder: bounded, first in first out. Ordinary
access units are dropped when it is full, because a late picture is
worth nothing; parameter sets wait for space, because without them no
later picture can be decoded.
-/
namespace VideoWall.Media

/-- A piece of work for the decoder. -/
inductive Job where
  | config (data : List UInt8)
  | unit (data : List UInt8)
  deriving DecidableEq, Repr

/-- The bytes of a job. -/
def Job.data : Job → List UInt8
  | .config data | .unit data => data

/-- The queue; it is closed once the decoder has gone. -/
structure DecoderQueue where
  capacity : Nat
  jobs : List Job := []
  closed : Bool := false
  deriving DecidableEq, Repr

/-- What became of an access unit. -/
inductive SubmitOutcome where
  | queued
  | dropped
  | closed
  deriving DecidableEq, Repr

/-- What became of a parameter set. -/
inductive ConfigOutcome where
  | queued
  | waiting
  | gone
  deriving DecidableEq, Repr

namespace DecoderQueue

/-- How many jobs the queue of an engine holds. -/
def engineCapacity : Nat := 8

/-- Whether there is no space left. -/
def isFull (q : DecoderQueue) : Bool := q.capacity ≤ q.jobs.length

/-- Queues an access unit if there is space. -/
def submitUnit (q : DecoderQueue) (data : List UInt8) : DecoderQueue × SubmitOutcome :=
  if q.closed then (q, .closed)
  else if q.isFull then (q, .dropped)
  else ({ q with jobs := q.jobs ++ [.unit data] }, .queued)

/-- Queues parameter sets, or says that they have to wait. -/
def submitConfig (q : DecoderQueue) (data : List UInt8) : DecoderQueue × ConfigOutcome :=
  if q.closed then (q, .gone)
  else if q.isFull then (q, .waiting)
  else ({ q with jobs := q.jobs ++ [.config data] }, .queued)

/-- The decoder takes the oldest job. -/
def receive (q : DecoderQueue) : DecoderQueue × Option Job :=
  match q.jobs with
  | [] => (q, none)
  | job :: rest => ({ q with jobs := rest }, some job)

/-- The decoder goes; what is queued is lost. -/
def close (q : DecoderQueue) : DecoderQueue := { q with closed := true, jobs := [] }

/-- What is said when parameter sets cannot be queued any more. -/
def goneMessage : String := "decoder thread has exited"

end DecoderQueue

end VideoWall.Media
