/-
How often a stream is asked for its detections. The interval is the base
interval until as many requests in a row have failed as the threshold
says; that failure and each one after it doubles the interval, up to the
largest one. A success sets everything back.

Times are in milliseconds. The counter of failures stops at the largest
32-bit number. The interval is doubled before it is compared with the
largest one, and there is no result where the double is no duration.
-/
import VideoWall.Clock

namespace VideoWall.Polling

/-- How streams are polled. -/
structure Settings where
  baseInterval : Nat := 1000
  maxInterval : Nat := 5000
  errorThreshold : Nat := 3
  requestTimeout : Nat := 5000
  deriving DecidableEq, Repr, Inhabited

/-- The interval in force and the failures since the last success. -/
structure Backoff where
  interval : Nat
  errors : Nat
  deriving DecidableEq, Repr, Inhabited

namespace Backoff

/-- The most failures that are counted. -/
def maxErrors : Nat := 4294967295

/-- Before the first request, and after a success. -/
def fresh (cfg : Settings) : Backoff := ⟨cfg.baseInterval, 0⟩

/-- One more failure. -/
def failed? (cfg : Settings) (b : Backoff) : Option Backoff :=
  let errors := min (b.errors + 1) maxErrors
  if errors < cfg.errorThreshold then some ⟨b.interval, errors⟩
  else if Clock.IsDuration (b.interval * 2) then
    some ⟨min (b.interval * 2) cfg.maxInterval, errors⟩
  else none

/-- Whether the last failure was the one that reached the threshold. -/
def isAtThreshold (cfg : Settings) (b : Backoff) : Bool := b.errors = cfg.errorThreshold

/-- After a request. -/
def after? (cfg : Settings) {ε α : Type} (outcome : Except ε α) (b : Backoff) : Option Backoff :=
  match outcome with
  | .ok _ => some (fresh cfg)
  | .error _ => b.failed? cfg

end Backoff

end VideoWall.Polling
